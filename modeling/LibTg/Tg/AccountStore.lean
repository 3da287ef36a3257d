import LibTg.Tg.Database
import LibTg.Tl.Buf

/-!
# The stores of an account (`tg/database.c`)

Five tables hold what an account has found out: its data centre, its number, photos and its key. The
statements that write a row do not all look for the row that the reader will ask for. A photo is found
by its number or its peer alone, and the `UPDATE` of an address or a telephone number has no condition
at all. `accounts_of_isolated` says when the accounts still do not get in each other's way.
-/

namespace LibTg.Tg

open LibTg.Tl Sql

/-- A text that has to fit into some characters, with one more behind it. -/
def bounded (size : ℕ) (text : List Char) : Option (List Char) :=
  if text.length < size then some text else none

/-! ## Addresses and telephone numbers -/

/-- The texts of a store of one text for every account. -/
structure TextStore where
  added : String
  written : List String
  read : List String

/-- The texts of `ip_address_to_database` and `ip_address_from_database`. -/
def ipStore : TextStore where
  added := "ALTER TABLE 'ips' ADD COLUMN 'ip' TEXT; "
  written := ["INSERT INTO 'ips' ('id') ", "SELECT %d ",
    "WHERE NOT EXISTS (SELECT 1 FROM ips WHERE id = %d); ",
    "UPDATE 'ips' SET 'ip' = '%s', id = %d; "]
  read := ["SELECT ip FROM ips WHERE id = %d;"]

/-- The texts of `phone_number_to_database` and `phone_number_from_database`. -/
def phoneNumberStore : TextStore where
  added := "ALTER TABLE 'phone_numbers' ADD COLUMN 'phone_number' TEXT; "
  written := ["INSERT INTO 'phone_numbers' ('id') ", "SELECT %d ",
    "WHERE NOT EXISTS (SELECT 1 FROM phone_numbers WHERE id = %d); ",
    "UPDATE 'phone_numbers' SET 'phone_number' = '%s', id = %d; "]
  read := ["SELECT phone_number FROM phone_numbers WHERE id = %d;"]

def TextStore.sql (store : TextStore) (id : Int32) (text : List Char) : List Char :=
  sprintf store.written [.d id, .d id, .s text, .d id]

/-- A column is added to a table, the row of the account is made, and the column is set. Without a
value, the text has run over the array for the statement. -/
def textToDatabase (store : TextStore) (id : Int32) (text : List Char) (database : Database) :
    Option (ℤ × Database) := do
  let (_, database) := tgSqlite3Exec database store.added.toList
  let sql ← bounded bufsiz (store.sql id text)
  some (tgSqlite3Exec database sql)

/-- The array that every row is copied into, unless a null pointer is copied or the array is too
short. -/
def assignedText (rows : List (List Value)) : Option (List Char) :=
  rows.foldlM (fun _ row ↦ (columnText (row.headD .null)).bind (bounded bufsiz)) []

/-- The text in the row of the account, a null pointer if that is empty. -/
def textFromDatabase (store : TextStore) (id : Int32) (database : Database) :
    Option (Option (List Char)) :=
  (assignedText (tgSqlite3ForEach database (sprintf store.read [.d id]))).map fun buf ↦
    if buf = [] then none else some buf

def ipAddressToDatabase (id : Int32) (ip : List Char) (database : Database) :
    Option (ℤ × Database) := textToDatabase ipStore id ip database

def ipAddressFromDatabase (id : Int32) (database : Database) : Option (Option (List Char)) :=
  textFromDatabase ipStore id database

def phoneNumberToDatabase (id : Int32) (phoneNumber : List Char) (database : Database) :
    Option (ℤ × Database) := textToDatabase phoneNumberStore id phoneNumber database

def phoneNumberFromDatabase (id : Int32) (database : Database) : Option (Option (List Char)) :=
  textFromDatabase phoneNumberStore id database

/-! ## Photos -/

/-- The first row with a text that is not empty. -/
def firstPhoto (rows : List (List Value)) : Option (List Char) :=
  rows.findSome? fun row ↦
    if 0 < (columnBlob (row.headD .null)).length then columnText (row.headD .null) else none

def photoPieces (id : Int32) (photoId : UInt64) (data : List Char) : List Piece :=
  formats ["INSERT INTO 'photos' ('photo_id') ", "SELECT %ld ",
      "WHERE NOT EXISTS (SELECT 1 FROM photos ", "WHERE photo_id = %ld); ",
      "UPDATE 'photos' SET 'photo_id' = %ld, id = %d, data = '"]
    [.ld photoId.toInt64, .ld photoId.toInt64, .ld photoId.toInt64, .d id] ++
  ([.text data] ++ formats ["' WHERE photo_id = %ld;"] [.ld photoId.toInt64])

/-- The text that `photo_to_database` begins with. -/
def photoAdded : List String :=
  ["ALTER TABLE 'photos' ADD COLUMN 'data' TEXT; ",
    "ALTER TABLE 'photos' ADD COLUMN 'photo_id' INT; "]

def photoToDatabase (id : Int32) (photoId : UInt64) (data : List Char) (database : Database) :
    Option (ℤ × Database) := do
  let (_, database) := tgSqlite3Exec database (photoAdded.map String.toList).flatten
  let sql ← strPrint (photoPieces id photoId data)
  some (tgSqlite3Exec database sql)

def photoFileFromDatabase (id : Int32) (photoId : UInt64) (database : Database) :
    Option (List Char) :=
  firstPhoto (tgSqlite3ForEach database
    (sprintf ["SELECT data FROM photos WHERE id = %d ", "AND photo_id = %ld;"]
      [.d id, .ld photoId.toInt64]))

def peerPhotoPieces (id : Int32) (peerId photoId : UInt64) (data : List Char) : List Piece :=
  formats ["INSERT INTO 'peer_photos' ('peer_id') ", "SELECT %ld ",
      "WHERE NOT EXISTS (SELECT 1 FROM peer_photos WHERE peer_id = %ld); ",
      "UPDATE 'peer_photos' SET id = %d, 'photo_id' = %ld, ", "data = '"]
    [.ld peerId.toInt64, .ld peerId.toInt64, .d id, .ld photoId.toInt64] ++
  ([.text data] ++ formats ["' WHERE peer_id = %ld;"] [.ld peerId.toInt64])

/-- The text that `peer_photo_to_database` begins with. -/
def peerPhotoAdded : List String :=
  ["ALTER TABLE 'peer_photos' ADD COLUMN 'data' TEXT; ",
    "ALTER TABLE 'peer_photos' ADD COLUMN 'peer_id' INT; ",
    "ALTER TABLE 'peer_photos' ADD COLUMN 'photo_id' INT; "]

def peerPhotoToDatabase (id : Int32) (peerId photoId : UInt64) (data : List Char)
    (database : Database) : Option (ℤ × Database) := do
  let (_, database) := tgSqlite3Exec database (peerPhotoAdded.map String.toList).flatten
  let sql ← strPrint (peerPhotoPieces id peerId photoId data)
  some (tgSqlite3Exec database sql)

def peerPhotoFileFromDatabase (id : Int32) (peerId photoId : UInt64) (database : Database) :
    Option (List Char) :=
  firstPhoto (tgSqlite3ForEach database
    (sprintf ["SELECT data FROM peer_photos WHERE id = %d ",
      "AND peer_id = %ld AND photo_id = %ld;"] [.d id, .ld peerId.toInt64, .ld photoId.toInt64]))

/-! ## Keys -/

def authKeyToDatabase (id : Int32) (authKey : List UInt8) (database : Database) : Database :=
  let (_, database) := tgSqlite3Exec database
    "ALTER TABLE 'auth_keys' ADD COLUMN 'auth_key' BLOB; ".toList
  let (_, database) := tgSqlite3Exec database
    (sprintf ["INSERT INTO 'auth_keys' (id) ", "SELECT %d ",
      "WHERE NOT EXISTS (SELECT 1 FROM auth_keys WHERE id = %d); "] [.d id, .d id])
  bindStep database
    (sprintf ["UPDATE 'auth_keys' SET 'auth_key' = (?) ", "WHERE id = %d; "] [.d id])
    (.blob authKey)

def authKeyFromDatabase (id : Int32) (database : Database) : List UInt8 :=
  (tgSqlite3ForEach database
    (sprintf ["SELECT auth_key FROM auth_keys WHERE id = %d;"] [.d id])).foldl
      (fun _ row ↦ columnBlob (row.headD .null)) []

/-! ## The promise -/

/-- A call of a writer. -/
inductive AccountWrite
  | ip (id : Int32) (address : List Char)
  | phoneNumber (id : Int32) (number : List Char)
  | photo (id : Int32) (photoId : UInt64) (data : List Char)
  | peerPhoto (id : Int32) (peerId photoId : UInt64) (data : List Char)
  | authKey (id : Int32) (key : List UInt8)
  deriving DecidableEq, Repr

def AccountWrite.apply (database : Database) : AccountWrite → Option Database
  | .ip id address => (ipAddressToDatabase id address database).map Prod.snd
  | .phoneNumber id number => (phoneNumberToDatabase id number database).map Prod.snd
  | .photo id photoId data => (photoToDatabase id photoId data database).map Prod.snd
  | .peerPhoto id peerId photoId data =>
    (peerPhotoToDatabase id peerId photoId data database).map Prod.snd
  | .authKey id key => some (authKeyToDatabase id key database)

/-- The calls of any accounts, on a new database. -/
def runAccounts (calls : List AccountWrite) : Option Database :=
  run AccountWrite.apply (databaseInit Database.empty) calls

/-- The addresses that are written, with their accounts. -/
def ipWrites (calls : List AccountWrite) : List (Int32 × List Char) :=
  calls.filterMap fun call ↦ match call with
    | .ip id address => some (id, address)
    | _ => none

/-- The telephone numbers that are written, with their accounts. -/
def phoneNumberWrites (calls : List AccountWrite) : List (Int32 × List Char) :=
  calls.filterMap fun call ↦ match call with
    | .phoneNumber id number => some (id, number)
    | _ => none

/-- A photo of an account. -/
structure PhotoWrite where
  id : Int32
  photoId : UInt64
  data : List Char
  deriving DecidableEq, Repr

def photoWrites (calls : List AccountWrite) : List PhotoWrite :=
  calls.filterMap fun call ↦ match call with
    | .photo id photoId data => some ⟨id, photoId, data⟩
    | _ => none

/-- The photo of a peer, of an account. -/
structure PeerPhotoWrite extends PhotoWrite where
  peerId : UInt64
  deriving DecidableEq, Repr

def peerPhotoWrites (calls : List AccountWrite) : List PeerPhotoWrite :=
  calls.filterMap fun call ↦ match call with
    | .peerPhoto id peerId photoId data => some ⟨⟨id, photoId, data⟩, peerId⟩
    | _ => none

/-- The keys that are written, with their accounts. -/
def authKeyWrites (calls : List AccountWrite) : List (Int32 × List UInt8) :=
  calls.filterMap fun call ↦ match call with
    | .authKey id key => some (id, key)
    | _ => none

/-- Every account reads back what it has written last, and nothing where it has written nothing. -/
structure AccountsKept (calls : List AccountWrite) (database : Database) : Prop where
  ip : ∀ id, ipAddressFromDatabase id database =
    some (((ipWrites calls).reverse.find? (·.1 = id)).map Prod.snd)
  phoneNumber : ∀ id, phoneNumberFromDatabase id database =
    some (((phoneNumberWrites calls).reverse.find? (·.1 = id)).map Prod.snd)
  photo : ∀ id photoId, photoFileFromDatabase id photoId database =
    ((photoWrites calls).reverse.find? fun write ↦
      (write.id, write.photoId) = (id, photoId)).map (·.data)
  peerPhoto : ∀ id peerId photoId, peerPhotoFileFromDatabase id peerId photoId database =
    ((peerPhotoWrites calls).reverse.find? fun write ↦
      (write.id, write.peerId, write.photoId) = (id, peerId, photoId)).map (·.data)
  authKey : ∀ id, authKeyFromDatabase id database =
    (((authKeyWrites calls).reverse.find? (·.1 = id)).map Prod.snd).getD []

/-- A text that is there and does not end the literal around it. -/
def PlainText (text : List Char) : Prop := text ≠ [] ∧ '\'' ∉ text

instance (text : List Char) : Decidable (PlainText text) := inferInstanceAs (Decidable (_ ∧ _))

/-- The statement of a text fits into the array for it. -/
def TextStore.Holds (store : TextStore) (write : Int32 × List Char) : Prop :=
  PlainText write.2 ∧ (store.sql write.1 write.2).length < bufsiz

/-- The statement of a photo fits into a `struct str`. -/
def HoldsPhoto (write : PhotoWrite) : Prop :=
  PlainText write.data ∧
    (print (photoPieces write.id write.photoId write.data)).length < strMax

/-- The statement of the photo of a peer fits into a `struct str`. -/
def HoldsPeerPhoto (write : PeerPhotoWrite) : Prop :=
  PlainText write.data ∧
    (print (peerPhotoPieces write.id write.peerId write.photoId write.data)).length < strMax

instance (store : TextStore) (write : Int32 × List Char) : Decidable (store.Holds write) :=
  inferInstanceAs (Decidable (_ ∧ _))

instance (write : PhotoWrite) : Decidable (HoldsPhoto write) :=
  inferInstanceAs (Decidable (_ ∧ _))

instance (write : PeerPhotoWrite) : Decidable (HoldsPeerPhoto write) :=
  inferInstanceAs (Decidable (_ ∧ _))

/-- One account writes addresses and one telephone numbers, a photo is written by one account only,
and a peer by one account and with one photo. Every text can be stored. -/
structure Isolated (calls : List AccountWrite) : Prop where
  ips : ∀ write ∈ ipWrites calls, ipStore.Holds write
  ipAccount : ∀ first ∈ ipWrites calls, ∀ second ∈ ipWrites calls, first.1 = second.1
  phoneNumbers : ∀ write ∈ phoneNumberWrites calls, phoneNumberStore.Holds write
  phoneNumberAccount : ∀ first ∈ phoneNumberWrites calls, ∀ second ∈ phoneNumberWrites calls,
    first.1 = second.1
  photos : ∀ write ∈ photoWrites calls, HoldsPhoto write
  photoAccount : ∀ first ∈ photoWrites calls, ∀ second ∈ photoWrites calls,
    first.photoId = second.photoId → first.id = second.id
  peerPhotos : ∀ write ∈ peerPhotoWrites calls, HoldsPeerPhoto write
  peerPhotoAccount : ∀ first ∈ peerPhotoWrites calls, ∀ second ∈ peerPhotoWrites calls,
    first.peerId = second.peerId → first.id = second.id ∧ first.photoId = second.photoId

/-! ## Tables that get their columns with the first write -/

section Written

variable {Entry Key : Type*} [DecidableEq Key] {layout : Keyed Entry Key} {writes : List Entry}
  {database : Database} {name : Name}

def writtenTable (layout : Keyed Entry Key) (writes : List Entry) : Table :=
  if writes = [] then ⟨[idColumn], []⟩ else layout.table (upserts layout.key writes)

/-- The first text of a writer leaves the table with all its columns. -/
theorem tgSqlite3Exec_added (hdatabase : database name = some (writtenTable layout writes))
    {text : List Char} {added : List Column} (hadded : added ≠ [])
    (hstatements : statements (lex text) =
      added.map fun column ↦ some (.addColumn name column))
    (hcolumns : layout.columns = [idColumn] ++ added)
    (hnodup : (layout.columns.map (·.name)).Nodup) :
    (tgSqlite3Exec database text).2 = Function.update database name
      (some (layout.table (upserts layout.key writes))) := by
  have hexec : (tgSqlite3Exec database text).2 =
      (executeAll database (added.map fun column ↦ some (.addColumn name column))).2 := by
    rw [← hstatements]
    rfl
  rw [hexec]
  by_cases hwrites : writes = []
  · rw [writtenTable, if_pos hwrites] at hdatabase
    have hall := executeAll_addColumns hdatabase (hcolumns ▸ hnodup) []
    rw [List.append_nil] at hall
    rw [hall, ← hcolumns, hwrites]
    rfl
  · rw [writtenTable, if_neg hwrites] at hdatabase
    obtain ⟨column, others, rfl⟩ := List.exists_cons_of_ne_nil hadded
    have hpresent : (findColumn layout.columns column.name).isSome := by
      rw [findColumn, List.find?_isSome]
      refine ⟨column, ?_, decide_eq_true rfl⟩
      rw [hcolumns]
      exact List.mem_append_right _ List.mem_cons_self
    rw [List.map_cons, executeAll_addColumn_present hdatabase hpresent, ← hdatabase,
      Function.update_eq_self]

/-- What is written becomes the last write. -/
theorem writtenTable_append (entry : Entry) : writtenTable layout (writes ++ [entry]) =
    layout.table (upsert layout.key (upserts layout.key writes) entry) := by
  rw [writtenTable, if_neg (List.append_ne_nil_of_right_ne_nil _ (List.cons_ne_nil _ _)),
    upserts_append]

/-- The two texts of a writer whose keys are integers. -/
theorem tgSqlite3Exec_written (hdatabase : database name = some (writtenTable layout writes))
    {text sql : List Char} {added : List Column} (hadded : added ≠ [])
    (htext : statements (lex text) = added.map fun column ↦ some (.addColumn name column))
    (hcolumns : layout.columns = [idColumn] ++ added)
    (hnodup : (layout.columns.map (·.name)).Nodup)
    (hplain : ∀ column ∈ layout.columns, column.unique = false) (column : Column)
    (hcolumn : findColumn layout.columns column.name = some column)
    (hinteger : column.affinity = .integer) {number : Key → Int64}
    (hnumber : Function.Injective number) {entry : Entry}
    (hinserted : layout.inserted entry = (column.name, .int (number (layout.key entry))))
    (hrow : ∀ other, layout.row other column.name = .int (number (layout.key other)))
    {sets : List (Name × Operand)} {condition : List Comparison}
    (hresolves : sets.all fun set ↦ (findColumn layout.columns set.1).isSome &&
      set.2.resolves layout.columns)
    (hsets : ∀ row, assignments layout.columns .null sets row = layout.sets entry)
    (hcondition : condition = [⟨.column column.name, .value (.int (number (layout.key entry)))⟩] ∨
      condition = [] ∧ ∀ other ∈ upserts layout.key writes, layout.key other = layout.key entry)
    (hsql : statements (lex sql) = [some (.insertAbsent name column.name
      (.value (.int (number (layout.key entry)))) name
      [⟨.column column.name, .value (.int (number (layout.key entry)))⟩]),
      some (.update name sets condition)]) :
    tgSqlite3Exec (tgSqlite3Exec database text).2 sql = (0, Function.update database name
      (some (writtenTable layout (writes ++ [entry])))) := by
  have hcolumnsAdded := tgSqlite3Exec_added hdatabase hadded htext hcolumns hnodup
  obtain ⟨next, hinsert, hupdate⟩ := Keyed.execute_upsert_int (Function.update_self name
    (some (layout.table (upserts layout.key writes))) database) column hcolumn hinteger hplain
    hnumber hinserted hrow hresolves hsets hcondition
  rw [hcolumnsAdded, tgSqlite3Exec_of_statements hsql hinsert hupdate, Function.update_idem,
    writtenTable_append]

/-- A reader finds the entries with what it asks for. -/
theorem selectRows_writtenTable (query : Select)
    (hdatabase : database query.table = some (writtenTable layout writes))
    (hresolves : (query.columns.all fun name ↦ (findColumn layout.columns name).isSome) ∧
      resolves layout.columns query.condition) {selected : Entry → Bool}
    (hmeets : ∀ entry, meets layout.columns .null query.condition (layout.row entry) =
      selected entry) :
    (selectRows database query).getD [] =
      ((upserts layout.key writes).filter selected).map fun entry ↦
        query.columns.map (layout.row entry) := by
  by_cases hwrites : writes = []
  · rw [writtenTable, if_pos hwrites] at hdatabase
    rw [selectRows_of_nil hdatabase, hwrites]
    rfl
  · rw [writtenTable, if_neg hwrites] at hdatabase
    rw [Keyed.selectRows_eq hdatabase hresolves fun entry _ ↦ hmeets entry, Option.getD_some]

end Written

/-! ## Comparisons with integers -/

/-- A comparison of a column that holds a number. -/
theorem holds_number {columns : List Column} (column : Column)
    (hcolumn : findColumn columns column.name = some column) (hinteger : column.affinity = .integer)
    {row : Row} {number : Int64} (hrow : row column.name = .int number) (parameter : Value)
    (wanted : Int64) : Comparison.holds columns parameter row
      ⟨.column column.name, .value (.int wanted)⟩ = decide (number = wanted) := by
  have hstore : column.affinity.store (.int wanted) = .int wanted := by
    rw [hinteger]
    rfl
  rw [holds_column column hcolumn hstore Value.noConfusion, hrow]
  apply decide_eq_decide.mpr
  rw [Value.int.injEq]

/-- The row of an account. -/
theorem holds_isAccount {columns : List Column}
    (hid : findColumn columns "id".toList = some idColumn) {row : Row} {account : Int32}
    (hrow : row "id".toList = .int account.toInt64) (parameter : Value) (id : Int32) :
    (isAccount id).holds columns parameter row = decide (account = id) := by
  have hholds : (isAccount id).holds columns parameter row =
      decide (account.toInt64 = id.toInt64) :=
    holds_number idColumn hid rfl hrow parameter id.toInt64
  rw [hholds]
  exact decide_eq_decide.mpr int32_toInt64_injective.eq_iff

/-- The row of a peer. -/
theorem holds_isPeer {columns : List Column}
    (hpeer : findColumn columns "peer_id".toList = some peerIdColumn) {row : Row} {peer : UInt64}
    (hrow : row "peer_id".toList = .int peer.toInt64) (parameter : Value) (peerId : UInt64) :
    (isPeer peerId).holds columns parameter row = decide (peer = peerId) := by
  have hholds : (isPeer peerId).holds columns parameter row =
      decide (peer.toInt64 = peerId.toInt64) :=
    holds_number peerIdColumn hpeer rfl hrow parameter peerId.toInt64
  rw [hholds]
  exact decide_eq_decide.mpr uint64_toInt64_injective.eq_iff

/-! ## Rows of a text -/

/-- What the columns of a store of texts hold. -/
def textLayout (column : Name) : Keyed (Int32 × List Char) Int32 where
  columns := [idColumn, ⟨column, .text, false⟩]
  key := Prod.fst
  inserted write := ("id".toList, .int write.1.toInt64)
  sets write := [(column, .text write.2), ("id".toList, .int write.1.toInt64)]
  inserted_eq h := by rw [h]
  names_eq _ _ := rfl

/-- What the texts of a store say about a table and its column. -/
structure TextStore.Means (store : TextStore) (table column : Name) : Prop where
  column_ne : column ≠ "id".toList
  added : statements (lex store.added.toList) = [some (.addColumn table ⟨column, .text, false⟩)]
  written : ∀ id text, '\'' ∉ text → statements (lex (store.sql id text)) =
    [some (.insertAbsent table "id".toList (.value (.int id.toInt64)) table [isAccount id]),
      some (.update table [(column, .value (.text text)), ("id".toList, .value (.int id.toInt64))]
        [])]
  length_le : ∀ id text, text.length ≤ (store.sql id text).length
  read : ∀ database id, query database (sprintf store.read [.d id]) =
    selectRows database ⟨[column], table, [isAccount id]⟩

set_option maxRecDepth 4000 in
theorem ipStore_means : ipStore.Means "ips".toList "ip".toList where
  column_ne := by decide +kernel
  added := statements_literal (by decide +kernel)
  written id text htext := statements_sprintf [_, _, _, _] rfl (by simpa using htext) rfl
  length_le _ _ := length_le_sprintf [_, _, _, _] rfl rfl
  read database id := by
    have hquery : query database (sprintf ipStore.read [.d id]) =
        (some (⟨["ip".toList], "ips".toList, [isAccount id]⟩ : Select)).bind
          (selectRows database) :=
      query_sprintf [_] rfl database (by simp) rfl
    exact hquery

set_option maxRecDepth 4000 in
theorem phoneNumberStore_means :
    phoneNumberStore.Means "phone_numbers".toList "phone_number".toList where
  column_ne := by decide +kernel
  added := statements_literal (by decide +kernel)
  written id text htext := statements_sprintf [_, _, _, _] rfl (by simpa using htext) rfl
  length_le _ _ := length_le_sprintf [_, _, _, _] rfl rfl
  read database id := by
    have hquery : query database (sprintf phoneNumberStore.read [.d id]) =
        (some (⟨["phone_number".toList], "phone_numbers".toList, [isAccount id]⟩ : Select)).bind
          (selectRows database) :=
      query_sprintf [_] rfl database (by simp) rfl
    exact hquery

section Texts

variable {column : Name}

theorem findColumn_textLayout (hcolumn : column ≠ "id".toList) :
    findColumn (textLayout column).columns "id".toList = some idColumn ∧
      findColumn (textLayout column).columns column = some ⟨column, .text, false⟩ := by
  constructor
  · exact List.find?_cons_of_pos (decide_eq_true rfl)
  · have hid : decide (idColumn.name = column) = false := decide_eq_false hcolumn.symm
    rw [findColumn, textLayout, List.find?_cons, hid, List.find?_cons, decide_eq_true rfl]

theorem row_textLayout (hcolumn : column ≠ "id".toList) (write : Int32 × List Char) :
    (textLayout column).row write "id".toList = .int write.1.toInt64 ∧
      (textLayout column).row write column = .text write.2 := by
  have hnodup : (((textLayout column).sets write).map Prod.fst).Nodup := by
    simpa [textLayout] using hcolumn
  constructor
  · exact assign_of_mem _ hnodup (by simp [textLayout])
  · exact assign_of_mem _ hnodup (by simp [textLayout])

variable {store : TextStore} {table : Name} {writes : List (Int32 × List Char)}
  {database : Database}

/-- A text that the same account writes comes last. -/
theorem textToDatabase_spec (hmeans : store.Means table column)
    (hdatabase : database table = some (writtenTable (textLayout column) writes)) {id : Int32}
    {text : List Char} (hholds : store.Holds (id, text)) (hsame : ∀ write ∈ writes, write.1 = id) :
    textToDatabase store id text database = some (0, Function.update database table
      (some (writtenTable (textLayout column) (writes ++ [(id, text)])))) := by
  have hnodup : ((textLayout column).columns.map (·.name)).Nodup := by
    simpa [textLayout, idColumn] using hmeans.column_ne.symm
  have hplain : ∀ found ∈ (textLayout column).columns, found.unique = false := by
    simp [textLayout, idColumn]
  obtain ⟨hid, htext⟩ := findColumn_textLayout hmeans.column_ne
  have hrow (other : Int32 × List Char) := (row_textLayout hmeans.column_ne other).1
  have hresolves : [(column, Operand.value (.text text)),
      ("id".toList, .value (.int id.toInt64))].all fun set ↦
        (findColumn (textLayout column).columns set.1).isSome &&
          set.2.resolves (textLayout column).columns := by
    simp only [List.all_cons, List.all_nil, hid, htext]
    rfl
  have hsets (row : Row) : assignments (textLayout column).columns .null
      [(column, .value (.text text)), ("id".toList, .value (.int id.toInt64))] row =
        (textLayout column).sets (id, text) := by
    simp only [assignments, List.map_cons, List.map_nil, stored, hid, htext, Option.map_some,
      Option.getD_some]
    rfl
  have hothers : ∀ other ∈ upserts (textLayout column).key writes, other.1 = id :=
    fun other hother ↦ hsame other (mem_of_mem_upserts hother)
  have hwrite := tgSqlite3Exec_written hdatabase (List.cons_ne_nil _ []) hmeans.added rfl hnodup
    hplain idColumn hid rfl int32_toInt64_injective rfl hrow hresolves hsets
    (.inr ⟨rfl, hothers⟩) (hmeans.written id text hholds.1.2)
  rw [textToDatabase, bounded, if_pos hholds.2]
  exact congrArg some hwrite

/-- An account that is the only one to write reads its last write. -/
theorem textFromDatabase_spec (hmeans : store.Means table column)
    (hdatabase : database table = some (writtenTable (textLayout column) writes))
    (hholds : ∀ write ∈ writes, store.Holds write) (id : Int32) :
    textFromDatabase store id database =
      some ((writes.reverse.find? (·.1 = id)).map Prod.snd) := by
  obtain ⟨hid, htext⟩ := findColumn_textLayout hmeans.column_ne
  have hready : ([column].all fun name ↦ (findColumn (textLayout column).columns name).isSome) ∧
      resolves (textLayout column).columns [isAccount id] := by
    constructor
    · simp [htext]
    · simp only [resolves, isAccount, List.all_cons, List.all_nil, Operand.resolves, hid]
      rfl
  have hselect := selectRows_writtenTable ⟨[column], table, [isAccount id]⟩ hdatabase hready
    fun entry ↦ (Bool.and_true _).trans
      (holds_isAccount hid (row_textLayout hmeans.column_ne entry).1 .null id)
  have hlast : (upserts (textLayout column).key writes).filter (·.1 = id) =
      (writes.reverse.find? (·.1 = id)).toList :=
    filter_upserts (fun _ _ _ _ ↦ Iff.rfl) id
  rw [textFromDatabase, tgSqlite3ForEach, hmeans.read, hselect, hlast]
  cases hfound : writes.reverse.find? (·.1 = id) with
  | none => rfl
  | some write =>
    have hwrite := hholds write (List.mem_reverse.mp (List.mem_of_find?_eq_some hfound))
    have hlength : write.2.length < bufsiz :=
      (hmeans.length_le write.1 write.2).trans_lt hwrite.2
    simp only [Option.map_some, Option.toList_some, List.map_cons, List.map_nil, assignedText,
      List.foldlM_cons, List.foldlM_nil, List.headD_cons,
      (row_textLayout hmeans.column_ne write).2, columnText, bounded, if_pos hlength,
      Option.bind_eq_bind, Option.bind_some, Option.pure_def, if_neg hwrite.1.1]

end Texts

/-! ## Rows of photos -/

def photoLayout : Keyed PhotoWrite UInt64 where
  columns := [idColumn, ⟨"data".toList, .text, false⟩, ⟨"photo_id".toList, .integer, false⟩]
  key write := write.photoId
  inserted write := ("photo_id".toList, .int write.photoId.toInt64)
  sets write := [("photo_id".toList, .int write.photoId.toInt64),
    ("id".toList, .int write.id.toInt64), ("data".toList, .text write.data)]
  inserted_eq h := by rw [h]
  names_eq _ _ := by simp only [List.map_cons, List.map_nil]

def peerPhotoLayout : Keyed PeerPhotoWrite UInt64 where
  columns := [idColumn, ⟨"data".toList, .text, false⟩, ⟨"peer_id".toList, .integer, false⟩,
    ⟨"photo_id".toList, .integer, false⟩]
  key write := write.peerId
  inserted write := ("peer_id".toList, .int write.peerId.toInt64)
  sets write := [("id".toList, .int write.id.toInt64),
    ("photo_id".toList, .int write.photoId.toInt64), ("data".toList, .text write.data)]
  inserted_eq h := by rw [h]
  names_eq _ _ := by simp only [List.map_cons, List.map_nil]

def photoIdColumn : Column := ⟨"photo_id".toList, .integer, false⟩

/-- The column of the picture. -/
def dataColumn : Column := ⟨"data".toList, .text, false⟩

theorem nodup_photoLayout : (photoLayout.columns.map (·.name)).Nodup := by
  simp [photoLayout, idColumn]

theorem nodup_peerPhotoLayout : (peerPhotoLayout.columns.map (·.name)).Nodup := by
  simp [peerPhotoLayout, idColumn]

theorem findColumn_photoLayout :
    findColumn photoLayout.columns "id".toList = some idColumn ∧
      findColumn photoLayout.columns "photo_id".toList = some photoIdColumn ∧
      findColumn photoLayout.columns "data".toList = some dataColumn := by
  have hcolumns : photoLayout.columns = [idColumn, dataColumn, photoIdColumn] := rfl
  have hfound := findColumn_of_mem nodup_photoLayout
  rw [hcolumns] at hfound ⊢
  exact ⟨hfound idColumn (.head _), hfound photoIdColumn (.tail _ (.tail _ (.head _))),
    hfound dataColumn (.tail _ (.head _))⟩

theorem findColumn_peerPhotoLayout :
    findColumn peerPhotoLayout.columns "id".toList = some idColumn ∧
      findColumn peerPhotoLayout.columns "peer_id".toList = some peerIdColumn ∧
      findColumn peerPhotoLayout.columns "photo_id".toList = some photoIdColumn ∧
      findColumn peerPhotoLayout.columns "data".toList = some dataColumn := by
  have hcolumns : peerPhotoLayout.columns = [idColumn, dataColumn, peerIdColumn, photoIdColumn] :=
    rfl
  have hfound := findColumn_of_mem nodup_peerPhotoLayout
  rw [hcolumns] at hfound ⊢
  exact ⟨hfound idColumn (.head _), hfound peerIdColumn (.tail _ (.tail _ (.head _))),
    hfound photoIdColumn (.tail _ (.tail _ (.tail _ (.head _)))),
    hfound dataColumn (.tail _ (.head _))⟩

/-- A comparison with a photo. -/
def isPhoto (photoId : UInt64) : Comparison :=
  ⟨.column "photo_id".toList, .value (.int photoId.toInt64)⟩

/-- The row of a photo. -/
theorem holds_isPhoto {columns : List Column}
    (hphoto : findColumn columns "photo_id".toList = some photoIdColumn) {row : Row}
    {photo : UInt64} (hrow : row "photo_id".toList = .int photo.toInt64) (parameter : Value)
    (photoId : UInt64) : (isPhoto photoId).holds columns parameter row =
      decide (photo = photoId) := by
  have hholds : (isPhoto photoId).holds columns parameter row =
      decide (photo.toInt64 = photoId.toInt64) :=
    holds_number photoIdColumn hphoto rfl hrow parameter photoId.toInt64
  rw [hholds]
  exact decide_eq_decide.mpr uint64_toInt64_injective.eq_iff

theorem statements_photoAdded : statements (lex (photoAdded.map String.toList).flatten) =
    photoLayout.columns.tail.map fun column ↦ some (.addColumn "photos".toList column) := by
  have hliterals : photoAdded.map String.toList = _ := map_toList_literals [_, _] rfl
  rw [hliterals]
  decide +kernel

theorem statements_peerPhotoAdded : statements (lex (peerPhotoAdded.map String.toList).flatten) =
    peerPhotoLayout.columns.tail.map fun column ↦
      some (.addColumn "peer_photos".toList column) := by
  have hliterals : peerPhotoAdded.map String.toList = _ := map_toList_literals [_, _, _] rfl
  rw [hliterals]
  decide +kernel

set_option maxRecDepth 4000 in
theorem statements_photoPieces (id : Int32) (photoId : UInt64) {data : List Char}
    (hdata : '\'' ∉ data) : statements (lex (print (photoPieces id photoId data))) =
      [some (.insertAbsent "photos".toList "photo_id".toList (.value (.int photoId.toInt64))
          "photos".toList [isPhoto photoId]),
        some (.update "photos".toList [("photo_id".toList, .value (.int photoId.toInt64)),
          ("id".toList, .value (.int id.toInt64)), ("data".toList, .value (.text data))]
          [isPhoto photoId])] := by
  have hfront (args : List Sql.Arg) : formats ["INSERT INTO 'photos' ('photo_id') ", "SELECT %ld ",
      "WHERE NOT EXISTS (SELECT 1 FROM photos ", "WHERE photo_id = %ld); ",
      "UPDATE 'photos' SET 'photo_id' = %ld, id = %d, data = '"] args = _ :=
    formats_literals [_, _, _, _, _] rfl args
  have hback (args : List Sql.Arg) : formats ["' WHERE photo_id = %ld;"] args = _ :=
    formats_literals [_] rfl args
  have hfree : QuoteFree (photoPieces id photoId data) :=
    (quoteFree_of_noText (by simp)).append ((QuoteFree.text hdata).append
      (quoteFree_of_noText (by simp)))
  apply statements_print hfree
  rw [photoPieces, hfront, hback]
  rfl

set_option maxRecDepth 4000 in
theorem statements_peerPhotoPieces (id : Int32) (peerId photoId : UInt64) {data : List Char}
    (hdata : '\'' ∉ data) : statements (lex (print (peerPhotoPieces id peerId photoId data))) =
      [some (.insertAbsent "peer_photos".toList "peer_id".toList (.value (.int peerId.toInt64))
          "peer_photos".toList [isPeer peerId]),
        some (.update "peer_photos".toList [("id".toList, .value (.int id.toInt64)),
          ("photo_id".toList, .value (.int photoId.toInt64)), ("data".toList, .value (.text data))]
          [isPeer peerId])] := by
  have hfront (args : List Sql.Arg) : formats ["INSERT INTO 'peer_photos' ('peer_id') ",
      "SELECT %ld ", "WHERE NOT EXISTS (SELECT 1 FROM peer_photos WHERE peer_id = %ld); ",
      "UPDATE 'peer_photos' SET id = %d, 'photo_id' = %ld, ", "data = '"] args = _ :=
    formats_literals [_, _, _, _, _] rfl args
  have hback (args : List Sql.Arg) : formats ["' WHERE peer_id = %ld;"] args = _ :=
    formats_literals [_] rfl args
  have hfree : QuoteFree (peerPhotoPieces id peerId photoId data) :=
    (quoteFree_of_noText (by simp)).append ((QuoteFree.text hdata).append
      (quoteFree_of_noText (by simp)))
  apply statements_print hfree
  rw [peerPhotoPieces, hfront, hback]
  rfl

/-- A photo comes last, whoever has written it before. -/
theorem photoToDatabase_spec {database : Database} {writes : List PhotoWrite}
    (hdatabase : database "photos".toList = some (writtenTable photoLayout writes))
    (write : PhotoWrite) (hholds : HoldsPhoto write) :
    photoToDatabase write.id write.photoId write.data database =
      some (0, Function.update database "photos".toList
        (some (writtenTable photoLayout (writes ++ [write])))) := by
  have hrow (other : PhotoWrite) :
      photoLayout.row other "photo_id".toList = .int other.photoId.toInt64 := by
    rfl
  have hsets (row : Row) : assignments photoLayout.columns .null
      [("photo_id".toList, .value (.int write.photoId.toInt64)),
        ("id".toList, .value (.int write.id.toInt64)), ("data".toList, .value (.text write.data))]
      row = photoLayout.sets write := by
    rfl
  have hwrite := tgSqlite3Exec_written hdatabase (List.cons_ne_nil _ _) statements_photoAdded rfl
    nodup_photoLayout (by simp [photoLayout, idColumn]) photoIdColumn
    findColumn_photoLayout.2.1 rfl uint64_toInt64_injective rfl hrow rfl hsets (.inl rfl)
    (statements_photoPieces write.id write.photoId hholds.1.2)
  rw [photoToDatabase, strPrint_of_fits hholds.2]
  exact congrArg some hwrite

/-- The photo of a peer comes last, whoever has written that peer before. -/
theorem peerPhotoToDatabase_spec {database : Database} {writes : List PeerPhotoWrite}
    (hdatabase : database "peer_photos".toList = some (writtenTable peerPhotoLayout writes))
    (write : PeerPhotoWrite) (hholds : HoldsPeerPhoto write) :
    peerPhotoToDatabase write.id write.peerId write.photoId write.data database =
      some (0, Function.update database "peer_photos".toList
        (some (writtenTable peerPhotoLayout (writes ++ [write])))) := by
  have hrow (other : PeerPhotoWrite) :
      peerPhotoLayout.row other "peer_id".toList = .int other.peerId.toInt64 := by
    rfl
  have hsets (row : Row) : assignments peerPhotoLayout.columns .null
      [("id".toList, .value (.int write.id.toInt64)),
        ("photo_id".toList, .value (.int write.photoId.toInt64)),
        ("data".toList, .value (.text write.data))] row = peerPhotoLayout.sets write := by
    rfl
  have hwrite := tgSqlite3Exec_written hdatabase (List.cons_ne_nil _ _)
    statements_peerPhotoAdded rfl nodup_peerPhotoLayout (by simp [peerPhotoLayout, idColumn])
    peerIdColumn findColumn_peerPhotoLayout.2.1 rfl uint64_toInt64_injective rfl hrow rfl hsets (.inl rfl)
    (statements_peerPhotoPieces write.id write.peerId write.photoId hholds.1.2)
  rw [peerPhotoToDatabase, strPrint_of_fits hholds.2]
  exact congrArg some hwrite

/-- A text that is not empty is what the loop over the rows stops at. -/
theorem firstPhoto_text {data : List Char} (hdata : data ≠ []) :
    firstPhoto [[.text data]] = some data := by
  have hlength : 0 < (columnBlob (.text data)).length := by
    simp only [columnBlob, columnText, Option.getD_some, List.length_map]
    exact List.length_pos_iff.mpr hdata
  rw [firstPhoto, List.findSome?_cons, List.headD_cons, if_pos hlength, columnText]

set_option maxRecDepth 4000 in
theorem query_photo (database : Database) (id : Int32) (photoId : UInt64) :
    query database (sprintf ["SELECT data FROM photos WHERE id = %d ", "AND photo_id = %ld;"]
      [.d id, .ld photoId.toInt64]) =
      selectRows database ⟨["data".toList], "photos".toList, [isAccount id, isPhoto photoId]⟩ := by
  have hquery : query database (sprintf ["SELECT data FROM photos WHERE id = %d ",
      "AND photo_id = %ld;"] [.d id, .ld photoId.toInt64]) =
      (some (⟨["data".toList], "photos".toList, [isAccount id, isPhoto photoId]⟩ : Select)).bind
        (selectRows database) :=
    query_sprintf [_, _] rfl database (by simp) rfl
  exact hquery

set_option maxRecDepth 4000 in
theorem query_peerPhoto (database : Database) (id : Int32) (peerId photoId : UInt64) :
    query database (sprintf ["SELECT data FROM peer_photos WHERE id = %d ",
      "AND peer_id = %ld AND photo_id = %ld;"]
      [.d id, .ld peerId.toInt64, .ld photoId.toInt64]) =
      selectRows database ⟨["data".toList], "peer_photos".toList,
        [isAccount id, isPeer peerId, isPhoto photoId]⟩ := by
  have hquery : query database (sprintf ["SELECT data FROM peer_photos WHERE id = %d ",
      "AND peer_id = %ld AND photo_id = %ld;"]
      [.d id, .ld peerId.toInt64, .ld photoId.toInt64]) =
      (some (⟨["data".toList], "peer_photos".toList,
        [isAccount id, isPeer peerId, isPhoto photoId]⟩ : Select)).bind (selectRows database) :=
    query_sprintf [_, _] rfl database (by simp) rfl
  exact hquery

/-- The photo that a reader finds. -/
theorem photoFileFromDatabase_eq {database : Database} {writes : List PhotoWrite}
    (hdatabase : database "photos".toList = some (writtenTable photoLayout writes)) (id : Int32)
    (photoId : UInt64) : photoFileFromDatabase id photoId database =
      firstPhoto (((upserts photoLayout.key writes).filter fun write ↦
        (write.id, write.photoId) = (id, photoId)).map fun write ↦ [.text write.data]) := by
  obtain ⟨hid, hphoto, hdata⟩ := findColumn_photoLayout
  have hready : (["data".toList].all fun name ↦ (findColumn photoLayout.columns name).isSome) ∧
      resolves photoLayout.columns [isAccount id, isPhoto photoId] := by
    simp only [resolves, isAccount, isPhoto, Operand.resolves, List.all_cons, List.all_nil, hid,
      hphoto, hdata, Option.isSome_some, Bool.and_self, and_self]
  have hrow (write : PhotoWrite) : photoLayout.row write "id".toList = .int write.id.toInt64 ∧
      photoLayout.row write "photo_id".toList = .int write.photoId.toInt64 ∧
      photoLayout.row write "data".toList = .text write.data := by
    refine ⟨?_, ?_, ?_⟩ <;> rfl
  have hmeets (write : PhotoWrite) : meets photoLayout.columns .null [isAccount id, isPhoto photoId]
      (photoLayout.row write) = decide ((write.id, write.photoId) = (id, photoId)) := by
    rw [meets_cons, meets_cons, meets_nil, Bool.and_true, holds_isAccount hid (hrow write).1,
      holds_isPhoto hphoto (hrow write).2.1, ← Bool.decide_and]
    apply decide_eq_decide.mpr
    rw [Prod.mk.injEq]
  rw [photoFileFromDatabase, tgSqlite3ForEach, query_photo,
    selectRows_writtenTable _ hdatabase hready hmeets]
  apply congrArg firstPhoto
  apply List.map_congr_left
  intro write _
  rw [List.map_cons, List.map_nil, (hrow write).2.2]

/-- The photo of a peer that a reader finds. -/
theorem peerPhotoFileFromDatabase_eq {database : Database} {writes : List PeerPhotoWrite}
    (hdatabase : database "peer_photos".toList = some (writtenTable peerPhotoLayout writes))
    (id : Int32) (peerId photoId : UInt64) :
    peerPhotoFileFromDatabase id peerId photoId database =
      firstPhoto (((upserts peerPhotoLayout.key writes).filter fun write ↦
        (write.id, write.peerId, write.photoId) = (id, peerId, photoId)).map fun write ↦
          [.text write.data]) := by
  obtain ⟨hid, hpeer, hphoto, hdata⟩ := findColumn_peerPhotoLayout
  have hready : (["data".toList].all fun name ↦
        (findColumn peerPhotoLayout.columns name).isSome) ∧
      resolves peerPhotoLayout.columns [isAccount id, isPeer peerId, isPhoto photoId] := by
    simp only [resolves, isAccount, isPeer, isPhoto, Operand.resolves, List.all_cons, List.all_nil,
      hid, hpeer, hphoto, hdata, Option.isSome_some, Bool.and_self, and_self]
  have hrow (write : PeerPhotoWrite) :
      peerPhotoLayout.row write "id".toList = .int write.id.toInt64 ∧
      peerPhotoLayout.row write "peer_id".toList = .int write.peerId.toInt64 ∧
      peerPhotoLayout.row write "photo_id".toList = .int write.photoId.toInt64 ∧
      peerPhotoLayout.row write "data".toList = .text write.data := by
    refine ⟨?_, ?_, ?_, ?_⟩ <;> rfl
  have hmeets (write : PeerPhotoWrite) : meets peerPhotoLayout.columns .null
      [isAccount id, isPeer peerId, isPhoto photoId] (peerPhotoLayout.row write) =
        decide ((write.id, write.peerId, write.photoId) = (id, peerId, photoId)) := by
    rw [meets_cons, meets_cons, meets_cons, meets_nil, Bool.and_true,
      holds_isAccount hid (hrow write).1, holds_isPeer hpeer (hrow write).2.1,
      holds_isPhoto hphoto (hrow write).2.2.1, ← Bool.decide_and, ← Bool.decide_and]
    apply decide_eq_decide.mpr
    rw [Prod.mk.injEq, Prod.mk.injEq]
  rw [peerPhotoFileFromDatabase, tgSqlite3ForEach, query_peerPhoto,
    selectRows_writtenTable _ hdatabase hready hmeets]
  apply congrArg firstPhoto
  apply List.map_congr_left
  intro write _
  rw [List.map_cons, List.map_nil, (hrow write).2.2.2]

/-- A photo that one account writes is read by that account as it was written last. -/
theorem photoFileFromDatabase_spec {database : Database} {writes : List PhotoWrite}
    (hdatabase : database "photos".toList = some (writtenTable photoLayout writes))
    (hholds : ∀ write ∈ writes, HoldsPhoto write)
    (haccount : ∀ first ∈ writes, ∀ second ∈ writes, first.photoId = second.photoId →
      first.id = second.id) (id : Int32) (photoId : UInt64) :
    photoFileFromDatabase id photoId database = (writes.reverse.find? fun write ↦
      (write.id, write.photoId) = (id, photoId)).map (·.data) := by
  have hsame : ∀ first ∈ writes, ∀ second ∈ writes,
      (first.id, first.photoId) = (second.id, second.photoId) ↔
        photoLayout.key first = photoLayout.key second := by
    intro first hfirst second hsecond
    rw [Prod.mk.injEq]
    exact ⟨fun h ↦ h.2, fun h ↦ ⟨haccount first hfirst second hsecond h, h⟩⟩
  have hfilter := filter_upserts hsame (id, photoId)
  rw [photoFileFromDatabase_eq hdatabase, hfilter]
  cases hfound : writes.reverse.find? fun write ↦
    decide ((write.id, write.photoId) = (id, photoId)) with
  | none => rfl
  | some write =>
    have hwrite := hholds write (List.mem_reverse.mp (List.mem_of_find?_eq_some hfound))
    rw [Option.toList_some, List.map_cons, List.map_nil, firstPhoto_text hwrite.1.1,
      Option.map_some]

/-- A peer that one account writes with one photo is read by that account as it was written
last. -/
theorem peerPhotoFileFromDatabase_spec {database : Database} {writes : List PeerPhotoWrite}
    (hdatabase : database "peer_photos".toList = some (writtenTable peerPhotoLayout writes))
    (hholds : ∀ write ∈ writes, HoldsPeerPhoto write)
    (haccount : ∀ first ∈ writes, ∀ second ∈ writes, first.peerId = second.peerId →
      first.id = second.id ∧ first.photoId = second.photoId) (id : Int32)
    (peerId photoId : UInt64) :
    peerPhotoFileFromDatabase id peerId photoId database = (writes.reverse.find? fun write ↦
      (write.id, write.peerId, write.photoId) = (id, peerId, photoId)).map (·.data) := by
  have hsame : ∀ first ∈ writes, ∀ second ∈ writes,
      (first.id, first.peerId, first.photoId) = (second.id, second.peerId, second.photoId) ↔
        peerPhotoLayout.key first = peerPhotoLayout.key second := by
    intro first hfirst second hsecond
    rw [Prod.mk.injEq, Prod.mk.injEq]
    constructor
    · exact fun h ↦ h.2.1
    · intro h
      obtain ⟨hsameId, hsamePhoto⟩ := haccount first hfirst second hsecond h
      exact ⟨hsameId, h, hsamePhoto⟩
  have hfilter := filter_upserts hsame (id, peerId, photoId)
  rw [peerPhotoFileFromDatabase_eq hdatabase, hfilter]
  cases hfound : writes.reverse.find? fun write ↦
    decide ((write.id, write.peerId, write.photoId) = (id, peerId, photoId)) with
  | none => rfl
  | some write =>
    have hwrite := hholds write (List.mem_reverse.mp (List.mem_of_find?_eq_some hfound))
    rw [Option.toList_some, List.map_cons, List.map_nil, firstPhoto_text hwrite.1.1,
      Option.map_some]

/-! ## Rows of keys -/

def authKeyColumn : Column := ⟨"auth_key".toList, .blob, false⟩

def authKeyLayout : Keyed (Int32 × List UInt8) Int32 where
  columns := [idColumn, ⟨"auth_key".toList, .blob, false⟩]
  key := Prod.fst
  inserted write := ("id".toList, .int write.1.toInt64)
  sets write := [("auth_key".toList, .blob write.2)]
  inserted_eq h := by rw [h]
  names_eq _ _ := by simp only [List.map_cons, List.map_nil]

theorem nodup_authKeyLayout : (authKeyLayout.columns.map (·.name)).Nodup := by
  simp [authKeyLayout, idColumn]

theorem findColumn_authKeyLayout :
    findColumn authKeyLayout.columns "id".toList = some idColumn ∧
      findColumn authKeyLayout.columns "auth_key".toList = some authKeyColumn := by
  have hcolumns : authKeyLayout.columns = [idColumn, authKeyColumn] := rfl
  have hfound := findColumn_of_mem nodup_authKeyLayout
  rw [hcolumns] at hfound ⊢
  exact ⟨hfound idColumn (.head _), hfound authKeyColumn (.tail _ (.head _))⟩

theorem statements_authKeyAdded :
    statements (lex "ALTER TABLE 'auth_keys' ADD COLUMN 'auth_key' BLOB; ".toList) =
      authKeyLayout.columns.tail.map fun column ↦
        some (.addColumn "auth_keys".toList column) :=
  statements_literal (by decide +kernel)

set_option maxRecDepth 4000 in
theorem statements_authKeyInsert (id : Int32) :
    statements (lex (sprintf ["INSERT INTO 'auth_keys' (id) ", "SELECT %d ",
      "WHERE NOT EXISTS (SELECT 1 FROM auth_keys WHERE id = %d); "] [.d id, .d id])) =
      [some (.insertAbsent "auth_keys".toList "id".toList (.value (.int id.toInt64))
        "auth_keys".toList [isAccount id])] :=
  statements_sprintf [_, _, _] rfl (by simp) rfl

set_option maxRecDepth 4000 in
theorem statements_authKeyUpdate (id : Int32) :
    statements (lex (sprintf ["UPDATE 'auth_keys' SET 'auth_key' = (?) ", "WHERE id = %d; "]
      [.d id])) =
      [some (.update "auth_keys".toList [("auth_key".toList, .parameter)] [isAccount id])] :=
  statements_sprintf [_, _] rfl (by simp) rfl

set_option maxRecDepth 4000 in
theorem query_authKey (database : Database) (id : Int32) :
    query database (sprintf ["SELECT auth_key FROM auth_keys WHERE id = %d;"] [.d id]) =
      selectRows database ⟨["auth_key".toList], "auth_keys".toList, [isAccount id]⟩ := by
  have hquery : query database
      (sprintf ["SELECT auth_key FROM auth_keys WHERE id = %d;"] [.d id]) =
      (some (⟨["auth_key".toList], "auth_keys".toList, [isAccount id]⟩ : Select)).bind
        (selectRows database) :=
    query_sprintf [_] rfl database (by simp) rfl
  exact hquery

/-- The key of an account takes the place of its former one. -/
theorem authKeyToDatabase_spec {database : Database} {writes : List (Int32 × List UInt8)}
    (hdatabase : database "auth_keys".toList = some (writtenTable authKeyLayout writes))
    (id : Int32) (authKey : List UInt8) : authKeyToDatabase id authKey database =
      Function.update database "auth_keys".toList
        (some (writtenTable authKeyLayout (writes ++ [(id, authKey)]))) := by
  obtain ⟨hid, -⟩ := findColumn_authKeyLayout
  have hrow (other : Int32 × List UInt8) :
      authKeyLayout.row other "id".toList = .int other.1.toInt64 := by
    rfl
  have hsets (row : Row) : assignments authKeyLayout.columns (.blob authKey)
      [("auth_key".toList, .parameter)] row = authKeyLayout.sets (id, authKey) := by
    rfl
  have hadded := tgSqlite3Exec_added hdatabase (List.cons_ne_nil _ _) statements_authKeyAdded rfl
    nodup_authKeyLayout
  obtain ⟨next, hinsert, hupdate⟩ := Keyed.execute_upsert_int (Function.update_self
    "auth_keys".toList (some (authKeyLayout.table (upserts authKeyLayout.key writes))) database)
    idColumn hid rfl (by simp [authKeyLayout, idColumn]) int32_toInt64_injective rfl hrow rfl hsets (.inl rfl)
  have hmade : (tgSqlite3Exec (Function.update database "auth_keys".toList
      (some (authKeyLayout.table (upserts authKeyLayout.key writes))))
      (sprintf ["INSERT INTO 'auth_keys' (id) ", "SELECT %d ",
        "WHERE NOT EXISTS (SELECT 1 FROM auth_keys WHERE id = %d); "] [.d id, .d id])).2 = next :=
    (tgSqlite3Exec_of_statement (statements_authKeyInsert id)).trans
      (congrArg (fun result : Option Database ↦ result.getD _) hinsert)
  have hfilled : bindStep next (sprintf ["UPDATE 'auth_keys' SET 'auth_key' = (?) ",
      "WHERE id = %d; "] [.d id]) (.blob authKey) = _ :=
    (bindStep_of_statement (.blob authKey) (statements_authKeyUpdate id)).trans
      (congrArg (fun result : Option Database ↦ result.getD next) hupdate)
  simp only [authKeyToDatabase]
  rw [hadded, hmade, hfilled, Option.getD_some, Function.update_idem, writtenTable_append]

/-- Every account reads its own key. -/
theorem authKeyFromDatabase_spec {database : Database} {writes : List (Int32 × List UInt8)}
    (hdatabase : database "auth_keys".toList = some (writtenTable authKeyLayout writes))
    (id : Int32) : authKeyFromDatabase id database =
      ((writes.reverse.find? (·.1 = id)).map Prod.snd).getD [] := by
  obtain ⟨hid, hkey⟩ := findColumn_authKeyLayout
  have hready : (["auth_key".toList].all fun name ↦
        (findColumn authKeyLayout.columns name).isSome) ∧
      resolves authKeyLayout.columns [isAccount id] := by
    simp only [resolves, isAccount, Operand.resolves, List.all_cons, List.all_nil, hid, hkey,
      Option.isSome_some, Bool.and_self, and_self]
  have hrow (write : Int32 × List UInt8) :
      authKeyLayout.row write "id".toList = .int write.1.toInt64 ∧
      authKeyLayout.row write "auth_key".toList = .blob write.2 := by
    constructor <;> rfl
  have hselect := selectRows_writtenTable ⟨["auth_key".toList], "auth_keys".toList,
    [isAccount id]⟩ hdatabase hready fun write ↦
      (Bool.and_true _).trans (holds_isAccount hid (hrow write).1 .null id)
  have hlast : (upserts authKeyLayout.key writes).filter (·.1 = id) =
      (writes.reverse.find? (·.1 = id)).toList :=
    filter_upserts (fun _ _ _ _ ↦ Iff.rfl) id
  rw [authKeyFromDatabase, tgSqlite3ForEach, query_authKey, hselect, hlast]
  cases writes.reverse.find? (·.1 = id) with
  | none => rfl
  | some write =>
    simp only [Option.map_some, Option.toList_some, List.map_cons, List.map_nil,
      (hrow write).2, List.foldl_cons, List.foldl_nil, List.headD_cons, columnBlob,
      Option.getD_some]

/-! ## Sequences of calls -/

/-- The tables that the calls are about. -/
inductive AccountTable
  | ips
  | phoneNumbers
  | photos
  | peerPhotos
  | authKeys
  deriving DecidableEq

def AccountTable.name : AccountTable → Name
  | .ips => "ips".toList
  | .phoneNumbers => "phone_numbers".toList
  | .photos => "photos".toList
  | .peerPhotos => "peer_photos".toList
  | .authKeys => "auth_keys".toList

def AccountTable.table (calls : List AccountWrite) : AccountTable → Table
  | .ips => writtenTable (textLayout "ip".toList) (ipWrites calls)
  | .phoneNumbers => writtenTable (textLayout "phone_number".toList) (phoneNumberWrites calls)
  | .photos => writtenTable photoLayout (photoWrites calls)
  | .peerPhotos => writtenTable peerPhotoLayout (peerPhotoWrites calls)
  | .authKeys => writtenTable authKeyLayout (authKeyWrites calls)

def AccountWrite.target : AccountWrite → AccountTable
  | .ip _ _ => .ips
  | .phoneNumber _ _ => .phoneNumbers
  | .photo _ _ _ => .photos
  | .peerPhoto _ _ _ _ => .peerPhotos
  | .authKey _ _ => .authKeys

theorem accountTable_name_injective : Function.Injective AccountTable.name := by
  intro first second h
  cases first <;> cases second <;> first | rfl | exact absurd h (by decide +kernel)

theorem name_mem_accountTables (table : AccountTable) : table.name ∈ accountTables := by
  cases table <;> decide +kernel

/-- A call is not about the other tables. -/
theorem table_append_of_ne {calls : List AccountWrite} {call : AccountWrite} {table : AccountTable}
    (hne : table ≠ call.target) : table.table (calls ++ [call]) = table.table calls := by
  cases table <;> cases call <;>
    first
    | exact absurd rfl hne
    | simp [AccountTable.table, ipWrites, phoneNumberWrites, photoWrites, peerPhotoWrites,
        authKeyWrites]

/-- The tables hold what has been written. -/
def HoldsAccounts (calls : List AccountWrite) (database : Database) : Prop :=
  ∀ table : AccountTable, database table.name = some (table.table calls)

theorem holdsAccounts_nil : HoldsAccounts [] (databaseInit Database.empty) := by
  intro table
  rw [databaseInit_apply, if_pos (name_mem_accountTables table)]
  cases table <;> rfl

theorem filterMap_subset_append {Write : Type} (write : AccountWrite → Option Write)
    (calls others : List AccountWrite) :
    calls.filterMap write ⊆ (calls ++ others).filterMap write :=
  ((List.sublist_append_left calls others).filterMap write).subset

/-- A call writes its own table. -/
theorem apply_spec {calls : List AccountWrite} {call : AccountWrite} {database : Database}
    (hholds : HoldsAccounts calls database) (h : Isolated (calls ++ [call])) :
    call.apply database = some (Function.update database call.target.name
      (some (call.target.table (calls ++ [call])))) := by
  have hlast : call ∈ calls ++ [call] := List.mem_append_right _ (List.mem_singleton_self call)
  cases call with
  | ip id address =>
    have hmem : (id, address) ∈ ipWrites (calls ++ [.ip id address]) :=
      List.mem_filterMap.mpr ⟨_, hlast, rfl⟩
    have hsame : ∀ write ∈ ipWrites calls, write.1 = id := fun write hwrite ↦
      h.ipAccount write (filterMap_subset_append _ _ _ hwrite) _ hmem
    have hwrite := textToDatabase_spec ipStore_means (hholds .ips) (h.ips _ hmem) hsame
    rw [AccountWrite.apply, ipAddressToDatabase, hwrite, Option.map_some, AccountWrite.target,
      AccountTable.table, ipWrites, ipWrites, List.filterMap_append]
    rfl
  | phoneNumber id number =>
    have hmem : (id, number) ∈ phoneNumberWrites (calls ++ [.phoneNumber id number]) :=
      List.mem_filterMap.mpr ⟨_, hlast, rfl⟩
    have hsame : ∀ write ∈ phoneNumberWrites calls, write.1 = id := fun write hwrite ↦
      h.phoneNumberAccount write (filterMap_subset_append _ _ _ hwrite) _ hmem
    have hwrite := textToDatabase_spec phoneNumberStore_means (hholds .phoneNumbers)
      (h.phoneNumbers _ hmem) hsame
    rw [AccountWrite.apply, phoneNumberToDatabase, hwrite, Option.map_some, AccountWrite.target,
      AccountTable.table, phoneNumberWrites, phoneNumberWrites, List.filterMap_append]
    rfl
  | photo id photoId data =>
    have hmem : ⟨id, photoId, data⟩ ∈ photoWrites (calls ++ [.photo id photoId data]) :=
      List.mem_filterMap.mpr ⟨_, hlast, rfl⟩
    have hwrite := photoToDatabase_spec (hholds .photos) _ (h.photos _ hmem)
    rw [AccountWrite.apply, hwrite, Option.map_some, AccountWrite.target, AccountTable.table,
      photoWrites, photoWrites, List.filterMap_append]
    rfl
  | peerPhoto id peerId photoId data =>
    have hmem : ⟨⟨id, photoId, data⟩, peerId⟩ ∈
        peerPhotoWrites (calls ++ [.peerPhoto id peerId photoId data]) :=
      List.mem_filterMap.mpr ⟨_, hlast, rfl⟩
    have hwrite := peerPhotoToDatabase_spec (hholds .peerPhotos) _ (h.peerPhotos _ hmem)
    rw [AccountWrite.apply, hwrite, Option.map_some, AccountWrite.target, AccountTable.table,
      peerPhotoWrites, peerPhotoWrites, List.filterMap_append]
    rfl
  | authKey id key =>
    rw [AccountWrite.apply, authKeyToDatabase_spec (hholds .authKeys), AccountWrite.target,
      AccountTable.table, authKeyWrites, authKeyWrites, List.filterMap_append]
    rfl

/-- A call keeps the other tables. -/
theorem holdsAccounts_append {calls : List AccountWrite} {call : AccountWrite}
    {database : Database} (hholds : HoldsAccounts calls database) :
    HoldsAccounts (calls ++ [call]) (Function.update database call.target.name
      (some (call.target.table (calls ++ [call])))) := by
  intro table
  by_cases htable : table = call.target
  · rw [htable, Function.update_self]
  · rw [Function.update_of_ne (accountTable_name_injective.ne htable), hholds table,
      table_append_of_ne htable]

theorem Isolated.append_left {calls others : List AccountWrite} (h : Isolated (calls ++ others)) :
    Isolated calls := by
  have hsub {Write : Type} (write : AccountWrite → Option Write) :=
    filterMap_subset_append write calls others
  constructor
  · exact fun write hwrite ↦ h.ips write (hsub _ hwrite)
  · exact fun first hfirst second hsecond ↦
      h.ipAccount first (hsub _ hfirst) second (hsub _ hsecond)
  · exact fun write hwrite ↦ h.phoneNumbers write (hsub _ hwrite)
  · exact fun first hfirst second hsecond ↦
      h.phoneNumberAccount first (hsub _ hfirst) second (hsub _ hsecond)
  · exact fun write hwrite ↦ h.photos write (hsub _ hwrite)
  · exact fun first hfirst second hsecond ↦
      h.photoAccount first (hsub _ hfirst) second (hsub _ hsecond)
  · exact fun write hwrite ↦ h.peerPhotos write (hsub _ hwrite)
  · exact fun first hfirst second hsecond ↦
      h.peerPhotoAccount first (hsub _ hfirst) second (hsub _ hsecond)

theorem runAccounts_append {calls : List AccountWrite} {database : Database}
    (hrun : runAccounts calls = some database) (call : AccountWrite) :
    runAccounts (calls ++ [call]) = call.apply database := by
  rw [runAccounts] at hrun ⊢
  rw [run_append, hrun, Option.bind_some, run_cons]
  cases call.apply database <;> rfl

/-- What the tables hold after a run in which no account writes a row of another one. -/
theorem holdsAccounts_runAccounts {calls : List AccountWrite} (h : Isolated calls) :
    ∃ database, runAccounts calls = some database ∧ HoldsAccounts calls database := by
  induction calls using List.reverseRecOn with
  | nil => exact ⟨_, rfl, holdsAccounts_nil⟩
  | append_singleton calls call ih =>
    obtain ⟨database, hrun, hholds⟩ := ih h.append_left
    refine ⟨_, ?_, holdsAccounts_append hholds⟩
    rw [runAccounts_append hrun, apply_spec hholds h]

/-- In every run in which no account writes a row of another one and every text can be stored, every
account reads what it has written last. -/
theorem accounts_of_isolated (calls : List AccountWrite) (h : Isolated calls) :
    ∃ database, runAccounts calls = some database ∧ AccountsKept calls database := by
  obtain ⟨database, hrun, hholds⟩ := holdsAccounts_runAccounts h
  refine ⟨database, hrun, ?_⟩
  constructor
  · exact textFromDatabase_spec ipStore_means (hholds .ips) h.ips
  · exact textFromDatabase_spec phoneNumberStore_means (hholds .phoneNumbers) h.phoneNumbers
  · exact photoFileFromDatabase_spec (hholds .photos) h.photos h.photoAccount
  · exact peerPhotoFileFromDatabase_spec (hholds .peerPhotos) h.peerPhotos h.peerPhotoAccount
  · exact authKeyFromDatabase_spec (hholds .authKeys)

/-- Two accounts write a key and a photo each. -/
theorem accounts_of_isolated_two :
    Isolated [.photo 1 7 "a".toList, .photo 2 8 "b".toList, .authKey 1 [1], .authKey 2 [2]] ∧
      ∃ database, runAccounts [.photo 1 7 "a".toList, .photo 2 8 "b".toList, .authKey 1 [1],
          .authKey 2 [2]] = some database ∧
        AccountsKept [.photo 1 7 "a".toList, .photo 2 8 "b".toList, .authKey 1 [1],
          .authKey 2 [2]] database := by
  have hisolated : Isolated [.photo 1 7 "a".toList, .photo 2 8 "b".toList, .authKey 1 [1],
      .authKey 2 [2]] := by
    constructor
    · decide +kernel
    · decide +kernel
    · decide +kernel
    · decide +kernel
    · decide +kernel
    · decide +kernel
    · decide +kernel
    · decide +kernel
  exact ⟨hisolated, accounts_of_isolated _ hisolated⟩

/-- Two accounts write the same photo, and the first one is told nothing. -/
theorem not_accountsKept_sharedPhoto :
    ¬ ∃ database, runAccounts [.photo 1 7 "a".toList, .photo 2 7 "b".toList] = some database ∧
      AccountsKept [.photo 1 7 "a".toList, .photo 2 7 "b".toList] database := by
  have hisolated : Isolated [.photo 1 7 "a".toList] := by
    constructor <;> decide +kernel
  obtain ⟨database, hrun, hholds⟩ := holdsAccounts_runAccounts hisolated
  have hsecond : HoldsPhoto ⟨2, 7, "b".toList⟩ := by decide +kernel
  have hwrite : photoToDatabase 2 7 "b".toList database = some (0, Function.update database
      "photos".toList (some (writtenTable photoLayout
        (photoWrites [.photo 1 7 "a".toList] ++ [⟨2, 7, "b".toList⟩])))) :=
    photoToDatabase_spec (hholds .photos) ⟨2, 7, "b".toList⟩ hsecond
  rintro ⟨last, hlast, hkept⟩
  have happend : runAccounts [.photo 1 7 "a".toList, .photo 2 7 "b".toList] =
      AccountWrite.apply database (.photo 2 7 "b".toList) :=
    runAccounts_append hrun _
  rw [happend, AccountWrite.apply, hwrite, Option.map_some, Option.some.injEq] at hlast
  have hphotos : last "photos".toList = some (writtenTable photoLayout
      (photoWrites [.photo 1 7 "a".toList] ++ [⟨2, 7, "b".toList⟩])) := by
    simp only [← hlast, Function.update_self]
  have hnone : photoFileFromDatabase 1 7 last = none := by
    rw [photoFileFromDatabase_eq hphotos]
    decide +kernel
  have hread := hkept.photo 1 7
  rw [hnone] at hread
  exact absurd hread (by decide +kernel)

end LibTg.Tg
