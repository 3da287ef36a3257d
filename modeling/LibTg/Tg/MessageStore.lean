import LibTg.Tg.Database

/-!
# The store of messages (`tg/messages.c`)

A message has a row with the text `<id>_<peer_id>_<msg_id>` in one column, which `INSERT` and `UPDATE`
find it by, and with the account, the peer and the message in three others, which `DELETE` goes by.
`messages_spec` says that both name the same row: after any calls by any accounts the table holds the
messages that have been written and not deleted since, with what was written last.
-/

namespace LibTg.Tg

open Sql

/-- The fields of `tg_message_t` that are stored. -/
structure TgMessage where
  id : UInt32
  peerId : UInt64
  date : UInt32
  messageData : List UInt8
  deriving DecidableEq, Repr

/-- The first statement of `tg_message_to_database`. -/
def messageInsert (id : Int32) (m : TgMessage) : List Char :=
  sprintf ["INSERT INTO 'messages' (id_peer_id_msg_id_) ", "SELECT '%d_%ld_%d' ",
    "WHERE NOT EXISTS (SELECT 1 FROM 'messages' ", "WHERE id_peer_id_msg_id_ = '%d_%ld_%d');\n"]
    [.d id, .ld m.peerId.toInt64, .d m.id.toInt32, .d id, .ld m.peerId.toInt64, .d m.id.toInt32]

/-- The second statement of `tg_message_to_database`. -/
def messageUpdate (id : Int32) (m : TgMessage) : List Char :=
  sprintf ["UPDATE 'messages' SET id = %d, date = %d, ",
    "msg_id_ = %d, peer_id = %ld, message_data = (?) ",
    "WHERE id_peer_id_msg_id_ = '%d_%ld_%d';"]
    [.d id, .d m.date.toInt32, .d m.id.toInt32, .ld m.peerId.toInt64, .d id, .ld m.peerId.toInt64,
      .d m.id.toInt32]

/-- `tg_message_to_database`, for the account `tg->id`. The second statement runs twice:
`sqlite3_step` starts it again once it is done. -/
def tgMessageToDatabase (id : Int32) (m : TgMessage) (database : Database) : ℤ × Database :=
  let database := (tgSqlite3Exec database (messageInsert id m)).2
  let database := bindStep database (messageUpdate id m) (.blob m.messageData)
  (0, bindStep database (messageUpdate id m) (.blob m.messageData))

/-- `tg_messages_delete_message`, with the result of `tg_messages_delete_message_`, the part that asks
the server. -/
def tgMessagesDeleteMessage (id : Int32) (answer : ℤ) (peerId : UInt64) (msgId : UInt32)
    (database : Database) : ℤ × Database :=
  if answer ≠ 0 then (-1, database)
  else
    let sql := sprintf ["DELETE from messages ",
      "WHERE id = %d AND peer_id = %ld AND msg_id_ = %d;"]
      [.d id, .ld peerId.toInt64, .d msgId.toInt32]
    (0, (tgSqlite3Exec database sql).2)

def tgMessagesRemoveAllFromDatabase (database : Database) : Database :=
  (tgSqlite3Exec database "DELETE from messages;".toList).2

/-! ## Keys -/

/-- An account, a peer and a message. -/
abbrev Triple := Int32 × UInt64 × UInt32

/-- The text that names the row of a message. -/
def messageKey (triple : Triple) : List Char :=
  sprintf ["%d_%ld_%d"] [.d triple.1, .ld triple.2.1.toInt64, .d triple.2.2.toInt32]

theorem messageKey_eq (triple : Triple) : messageKey triple =
    printInt triple.1.toInt64.toInt ++ ['_'] ++ printInt triple.2.1.toInt64.toInt ++ ['_'] ++
      printInt triple.2.2.toInt32.toInt64.toInt := by
  have hliteral (args : List Arg) : formats ["%d_%ld_%d"] args = _ := formats_literals [_] rfl args
  rw [messageKey, sprintf, hliteral]
  simp [format, print, Piece.print]

/-- Different messages have different keys. -/
theorem messageKey_injective : Function.Injective messageKey := by
  rintro ⟨firstId, firstPeer, firstMsg⟩ ⟨secondId, secondPeer, secondMsg⟩ h
  rw [messageKey_eq, messageKey_eq] at h
  simp only [List.append_assoc, List.singleton_append] at h
  obtain ⟨hid, h⟩ := printInt_append_inj (by decide) h
  obtain ⟨hpeer, h⟩ := printInt_append_inj (by decide) h
  have hmsg := printInt_injective h
  rw [Int64.toInt_inj, int32_toInt64_injective.eq_iff] at hid
  rw [Int64.toInt_inj, uint64_toInt64_injective.eq_iff] at hpeer
  rw [Int64.toInt_inj, int32_toInt64_injective.eq_iff, uint32_toInt32_injective.eq_iff] at hmsg
  rw [hid, hpeer, hmsg]

/-! ## Rows -/

def TgMessage.triple (m : TgMessage) (id : Int32) : Triple := (id, m.peerId, m.id)

def messageLayout : Keyed (Int32 × TgMessage) Triple where
  columns := messageColumns
  key entry := entry.2.triple entry.1
  inserted entry := ("id_peer_id_msg_id_".toList, .text (messageKey (entry.2.triple entry.1)))
  sets entry := [("id".toList, .int entry.1.toInt64),
    ("date".toList, .int entry.2.date.toInt32.toInt64),
    ("msg_id_".toList, .int entry.2.id.toInt32.toInt64),
    ("peer_id".toList, .int entry.2.peerId.toInt64),
    ("message_data".toList, .blob entry.2.messageData)]
  inserted_eq h := by rw [h]
  names_eq _ _ := by simp only [List.map_cons, List.map_nil]

/-- The column with the key names the row of a message. -/
def hasKey (triple : Triple) : List Comparison :=
  [⟨.column "id_peer_id_msg_id_".toList, .value (.text (messageKey triple))⟩]

def messageInsertStatement (id : Int32) (m : TgMessage) : Statement :=
  .insertAbsent "messages".toList "id_peer_id_msg_id_".toList
    (.value (.text (messageKey (m.triple id)))) "messages".toList (hasKey (m.triple id))

/-- The columns that are set afterwards. -/
def messageSets (id : Int32) (m : TgMessage) : List (Name × Operand) :=
  [("id".toList, .value (.int id.toInt64)),
    ("date".toList, .value (.int m.date.toInt32.toInt64)),
    ("msg_id_".toList, .value (.int m.id.toInt32.toInt64)),
    ("peer_id".toList, .value (.int m.peerId.toInt64)), ("message_data".toList, .parameter)]

/-- The statement that fills the row of a message. -/
def messageUpdateStatement (id : Int32) (m : TgMessage) : Statement :=
  .update "messages".toList (messageSets id m) (hasKey (m.triple id))

/-- The three columns that `DELETE` goes by. -/
def hasColumns (triple : Triple) : List Comparison :=
  [⟨.column "id".toList, .value (.int triple.1.toInt64)⟩,
    ⟨.column "peer_id".toList, .value (.int triple.2.1.toInt64)⟩,
    ⟨.column "msg_id_".toList, .value (.int triple.2.2.toInt32.toInt64)⟩]

set_option maxRecDepth 4000 in
theorem statements_messageInsert (id : Int32) (m : TgMessage) :
    statements (lex (messageInsert id m)) = [some (messageInsertStatement id m)] := by
  rw [messageInsertStatement, hasKey, messageKey_eq]
  exact statements_sprintf [_, _, _, _] rfl (by simp) rfl

set_option maxRecDepth 4000 in
theorem statements_messageUpdate (id : Int32) (m : TgMessage) :
    statements (lex (messageUpdate id m)) = [some (messageUpdateStatement id m)] := by
  rw [messageUpdateStatement, hasKey, messageKey_eq]
  exact statements_sprintf [_, _, _] rfl (by simp) rfl

theorem unique_messageLayout (rows : List Row) : Table.Unique ⟨messageLayout.columns, rows⟩ := by
  have hcolumns : ∀ column ∈ messageColumns, column.unique = false := by decide +kernel
  exact unique_of_forall hcolumns rows

/-- The condition of `INSERT` and `UPDATE` finds the row of the message. -/
theorem meets_hasKey (parameter : Value) (triple : Triple) (entry : Int32 × TgMessage) :
    meets messageLayout.columns parameter (hasKey triple) (messageLayout.row entry) =
      decide (messageLayout.key entry = triple) := by
  have hrow : messageLayout.row entry "id_peer_id_msg_id_".toList =
      .text (messageKey (messageLayout.key entry)) := by
    rfl
  rw [hasKey, meets_column ⟨"id_peer_id_msg_id_".toList, .text, false⟩ (by decide +kernel) rfl
    Value.noConfusion, hrow]
  apply decide_eq_decide.mpr
  rw [Value.text.injEq, messageKey_injective.eq_iff]

/-- It finds the row that `INSERT` has made. -/
theorem meets_hasKey_fresh (parameter : Value) (entry : Int32 × TgMessage) :
    meets messageLayout.columns parameter (hasKey (messageLayout.key entry))
      (messageLayout.fresh entry) = true := by
  have hrow : messageLayout.fresh entry "id_peer_id_msg_id_".toList =
      .text (messageKey (messageLayout.key entry)) := by
    rfl
  rw [hasKey, meets_column ⟨"id_peer_id_msg_id_".toList, .text, false⟩ (by decide +kernel) rfl
    Value.noConfusion, hrow]
  exact decide_eq_true rfl

/-- The row belongs to the account and names the peer and the message. -/
def IsRowOf (triple : Triple) (row : Row) : Prop :=
  row "id".toList = .int triple.1.toInt64 ∧ row "peer_id".toList = .int triple.2.1.toInt64 ∧
    row "msg_id_".toList = .int triple.2.2.toInt32.toInt64

instance (triple : Triple) (row : Row) : Decidable (IsRowOf triple row) :=
  inferInstanceAs (Decidable (_ ∧ _ ∧ _))

theorem isRowOf_row (triple : Triple) (entry : Int32 × TgMessage) :
    IsRowOf triple (messageLayout.row entry) ↔ messageLayout.key entry = triple := by
  have hid : messageLayout.row entry "id".toList = .int entry.1.toInt64 := by rfl
  have hpeer : messageLayout.row entry "peer_id".toList = .int entry.2.peerId.toInt64 := by rfl
  have hmsg : messageLayout.row entry "msg_id_".toList = .int entry.2.id.toInt32.toInt64 := by rfl
  have hkey : messageLayout.key entry = (entry.1, entry.2.peerId, entry.2.id) := rfl
  rw [IsRowOf, hid, hpeer, hmsg, hkey, Prod.ext_iff, Prod.ext_iff]
  simp only [Value.int.injEq, int32_toInt64_injective.eq_iff, uint64_toInt64_injective.eq_iff,
    uint32_toInt32_injective.eq_iff]

/-- The condition of `DELETE` finds the same row. -/
theorem meets_hasColumns (parameter : Value) (triple : Triple) (entry : Int32 × TgMessage) :
    meets messageLayout.columns parameter (hasColumns triple) (messageLayout.row entry) =
      decide (messageLayout.key entry = triple) := by
  rw [hasColumns, meets_cons, meets_cons, meets_cons, meets_nil,
    holds_column idColumn (by decide +kernel) rfl Value.noConfusion,
    holds_column ⟨"peer_id".toList, .integer, false⟩ (by decide +kernel) rfl Value.noConfusion,
    holds_column ⟨"msg_id_".toList, .integer, false⟩ (by decide +kernel) rfl Value.noConfusion,
    Bool.and_true, ← Bool.decide_and, ← Bool.decide_and]
  exact decide_eq_decide.mpr (isRowOf_row triple entry)

/-! ## Calls -/

def HoldsMessages (database : Database) (entries : List (Int32 × TgMessage)) : Prop :=
  database "messages".toList = some (messageLayout.table entries)

theorem resolves_messageUpdate (id : Int32) (m : TgMessage) :
    ((messageSets id m).all fun set ↦ (findColumn messageLayout.columns set.1).isSome &&
      set.2.resolves messageLayout.columns) ∧
    resolves messageLayout.columns (hasKey (m.triple id)) :=
  ⟨rfl, rfl⟩

theorem assignments_messageUpdate (id : Int32) (m : TgMessage) (row : Row) :
    assignments messageLayout.columns (.blob m.messageData) (messageSets id m) row =
      messageLayout.sets (id, m) := rfl

/-- Both statements together write the message, and the second one again changes nothing. -/
theorem execute_message {database : Database} {entries : List (Int32 × TgMessage)}
    (hdatabase : HoldsMessages database entries) (id : Int32) (m : TgMessage) :
    ∃ inserted updated, execute .null database (messageInsertStatement id m) = some inserted ∧
      execute (.blob m.messageData) inserted (messageUpdateStatement id m) = some updated ∧
      execute (.blob m.messageData) updated (messageUpdateStatement id m) = some updated ∧
      HoldsMessages updated (upsert messageLayout.key entries (id, m)) := by
  have hinsert : (findColumn messageLayout.columns "id_peer_id_msg_id_".toList).isSome ∧
      (Operand.value (.text (messageKey (m.triple id)))).resolves [] ∧
      resolves messageLayout.columns (hasKey (m.triple id)) := ⟨rfl, rfl, rfl⟩
  have hinserted : messageLayout.inserted (id, m) = ("id_peer_id_msg_id_".toList,
      stored messageLayout.columns "id_peer_id_msg_id_".toList
        ((Operand.value (.text (messageKey (m.triple id)))).eval .null Row.empty)) := rfl
  have hresolves := resolves_messageUpdate id m
  have hsets := assignments_messageUpdate id m
  have hmeets (other : Int32 × TgMessage) := meets_hasKey (.blob m.messageData) (m.triple id) other
  obtain ⟨inserted, hfirst, hsecond⟩ := Keyed.execute_upsert hdatabase hinsert hinserted
    (fun other _ ↦ meets_hasKey .null (m.triple id) other) hresolves hsets
    (fun other _ ↦ hmeets other) (meets_hasKey_fresh _ (id, m))
    (fun _ ↦ unique_messageLayout _) (unique_messageLayout _)
  have hupdated := Function.update_self "messages".toList
    (some (messageLayout.table (upsert messageLayout.key entries (id, m)))) database
  exact ⟨inserted, _, hfirst, hsecond, Keyed.execute_update_again hupdated hresolves hsets
    (fun other _ ↦ hmeets other) (unique_messageLayout _), hupdated⟩

theorem tgMessageToDatabase_spec {database : Database} {entries : List (Int32 × TgMessage)}
    (hdatabase : HoldsMessages database entries) (id : Int32) (m : TgMessage) :
    HoldsMessages (tgMessageToDatabase id m database).2
      (upsert messageLayout.key entries (id, m)) := by
  obtain ⟨inserted, updated, hinsert, hupdate, hagain, hholds⟩ := execute_message hdatabase id m
  have hexec : (tgSqlite3Exec database (messageInsert id m)).2 = inserted := by
    calc (tgSqlite3Exec database (messageInsert id m)).2
        = (execute .null database (messageInsertStatement id m)).getD database :=
          tgSqlite3Exec_of_statement (statements_messageInsert id m)
      _ = inserted := by rw [hinsert, Option.getD_some]
  have hresult : (tgMessageToDatabase id m database).2 = updated := by
    have hstep (before : Database) :
        bindStep before (messageUpdate id m) (.blob m.messageData) =
          (execute (.blob m.messageData) before (messageUpdateStatement id m)).getD before :=
      bindStep_of_statement _ (statements_messageUpdate id m)
    rw [tgMessageToDatabase, hexec]
    simp only [hstep, hupdate, Option.getD_some, hagain]
  rw [hresult]
  exact hholds

set_option maxRecDepth 4000 in
theorem statements_messageDelete (id : Int32) (peerId : UInt64) (msgId : UInt32) :
    statements (lex (sprintf ["DELETE from messages ",
      "WHERE id = %d AND peer_id = %ld AND msg_id_ = %d;"]
      [.d id, .ld peerId.toInt64, .d msgId.toInt32])) =
      [some (.delete "messages".toList (hasColumns (id, peerId, msgId)))] :=
  statements_sprintf [_, _] rfl (by simp) rfl

theorem tgMessagesDeleteMessage_spec {database : Database} {entries : List (Int32 × TgMessage)}
    (hdatabase : HoldsMessages database entries) (id : Int32) (peerId : UInt64) (msgId : UInt32) :
    HoldsMessages (tgMessagesDeleteMessage id 0 peerId msgId database).2
      (entries.filter fun entry ↦ ! decide (messageLayout.key entry = (id, peerId, msgId))) := by
  have hdelete : execute .null database
      (.delete "messages".toList (hasColumns (id, peerId, msgId))) =
        some (Function.update database "messages".toList (some (messageLayout.table
          (entries.filter fun entry ↦ ! decide (messageLayout.key entry = (id, peerId, msgId)))))) :=
    Keyed.execute_delete hdatabase rfl (fun entry _ ↦ meets_hasColumns .null _ entry)
      (unique_messageLayout _)
  rw [HoldsMessages, tgMessagesDeleteMessage, if_neg (not_not.mpr rfl)]
  simp only [tgSqlite3Exec_of_statement (statements_messageDelete id peerId msgId), hdelete,
    Option.getD_some, Function.update_self]

theorem tgMessagesRemoveAllFromDatabase_spec {database : Database}
    {entries : List (Int32 × TgMessage)} (hdatabase : HoldsMessages database entries) :
    HoldsMessages (tgMessagesRemoveAllFromDatabase database) [] := by
  have hstatements : statements (lex "DELETE from messages;".toList) =
      [some (.delete "messages".toList [])] :=
    statements_literal (by decide +kernel)
  have hdelete : execute .null database (.delete "messages".toList []) =
      some (Function.update database "messages".toList (some (messageLayout.table
        (entries.filter fun _ ↦ ! true)))) :=
    Keyed.execute_delete hdatabase rfl (fun entry _ ↦ meets_nil _ _ _) (unique_messageLayout _)
  have hnone : entries.filter (fun _ ↦ ! true) = [] := by
    rw [List.filter_eq_nil_iff]
    intro entry _
    decide
  rw [hnone] at hdelete
  rw [HoldsMessages, tgMessagesRemoveAllFromDatabase, tgSqlite3Exec_of_statement hstatements,
    hdelete, Option.getD_some, Function.update_self]

/-! ## Sequences of calls -/

/-- A call that changes the store; the server part of a deletion has succeeded. -/
inductive MessageCall
  | write (id : Int32) (m : TgMessage)
  | delete (id : Int32) (peerId : UInt64) (msgId : UInt32)
  | removeAll
  deriving DecidableEq, Repr

def MessageCall.run (database : Database) : MessageCall → Database
  | .write id m => (tgMessageToDatabase id m database).2
  | .delete id peerId msgId => (tgMessagesDeleteMessage id 0 peerId msgId database).2
  | .removeAll => tgMessagesRemoveAllFromDatabase database

/-- The call writes or deletes a message. -/
def MessageCall.concerns (triple : Triple) : MessageCall → Prop
  | .write id m => m.triple id = triple
  | .delete id peerId msgId => (id, peerId, msgId) = triple
  | .removeAll => True

/-- A message has been written, and afterwards it has been neither written nor deleted. -/
def LastWritten (calls : List MessageCall) (triple : Triple) (m : TgMessage) : Prop :=
  m.triple triple.1 = triple ∧ LastIn calls (.write triple.1 m) (·.concerns triple)

theorem lastWritten_append {calls : List MessageCall} {call : MessageCall} {triple : Triple}
    {m : TgMessage} : LastWritten (calls ++ [call]) triple m ↔
      (call = .write triple.1 m ∧ m.triple triple.1 = triple) ∨
        (¬ call.concerns triple ∧ LastWritten calls triple m) := by
  rw [LastWritten, LastWritten, lastIn_append, and_or_left, and_comm, and_left_comm]

/-- After some calls, the rows of the table are the messages that were written last. -/
structure StoresMessages (calls : List MessageCall) (database : Database)
    (entries : List (Int32 × TgMessage)) : Prop where
  holds : HoldsMessages database entries
  nodup : (entries.map messageLayout.key).Nodup
  mem_iff : ∀ id m, (id, m) ∈ entries ↔ LastWritten calls (m.triple id) m

theorem StoresMessages.run {calls : List MessageCall} {database : Database}
    {entries : List (Int32 × TgMessage)} (h : StoresMessages calls database entries)
    (call : MessageCall) :
    ∃ next, StoresMessages (calls ++ [call]) (call.run database) next := by
  cases call with
  | write id m =>
    refine ⟨_, tgMessageToDatabase_spec h.holds id m, nodup_upsert _ h.nodup, fun other old ↦ ?_⟩
    rw [mem_upsert, lastWritten_append, h.mem_iff, Prod.mk.injEq]
    have hkey : messageLayout.key (other, old) ≠ messageLayout.key (id, m) ↔
        ¬ (MessageCall.write id m).concerns (old.triple other) :=
      not_congr eq_comm
    have hwrite : MessageCall.write id m = .write (old.triple other).1 old ∧
        old.triple (old.triple other).1 = old.triple other ↔ other = id ∧ old = m := by
      rw [MessageCall.write.injEq]
      constructor
      · rintro ⟨⟨rfl, rfl⟩, -⟩
        exact ⟨rfl, rfl⟩
      · rintro ⟨rfl, rfl⟩
        exact ⟨⟨rfl, rfl⟩, rfl⟩
    rw [hkey, hwrite, and_comm (a := LastWritten _ _ _)]
  | delete id peerId msgId =>
    refine ⟨_, tgMessagesDeleteMessage_spec h.holds id peerId msgId,
      h.nodup.sublist (List.filter_sublist.map _), fun other old ↦ ?_⟩
    have hkey : (! decide (messageLayout.key (other, old) = (id, peerId, msgId))) = true ↔
        ¬ (MessageCall.delete id peerId msgId).concerns (old.triple other) := by
      rw [Bool.not_eq_true', decide_eq_false_iff_not]
      exact not_congr eq_comm
    rw [List.mem_filter, lastWritten_append, h.mem_iff, hkey, and_comm (a := LastWritten _ _ _)]
    constructor
    · exact .inr
    · rintro (⟨heq, -⟩ | hboth)
      · cases heq
      · exact hboth
  | removeAll =>
    refine ⟨_, tgMessagesRemoveAllFromDatabase_spec h.holds, List.nodup_nil, fun other old ↦ ?_⟩
    rw [lastWritten_append]
    constructor
    · exact fun hmem ↦ absurd hmem List.not_mem_nil
    · rintro (⟨heq, -⟩ | ⟨hcall, -⟩)
      · cases heq
      · exact absurd trivial hcall

/-- The calls of any accounts, on a new database. -/
def runMessages (calls : List MessageCall) : Database :=
  calls.foldl MessageCall.run (databaseInit Database.empty)

theorem storesMessages_runMessages (calls : List MessageCall) :
    ∃ entries, StoresMessages calls (runMessages calls) entries := by
  induction calls using List.reverseRecOn with
  | nil =>
    refine ⟨[], ?_, List.nodup_nil, fun id m ↦ ?_⟩
    · have hothers : "messages".toList ∉ accountTables := by decide +kernel
      rw [HoldsMessages, runMessages, List.foldl_nil, databaseInit_apply, if_neg hothers,
        if_pos rfl]
      rfl
    · exact iff_of_false List.not_mem_nil fun hlast ↦ not_lastIn_nil hlast.2
  | append_singleton calls call ih =>
    obtain ⟨entries, h⟩ := ih
    rw [runMessages, List.foldl_append, List.foldl_cons, List.foldl_nil]
    exact h.run call

/-- After any calls, the table has at most one row for an account, a peer and a message; it has one
if and only if the message was written and not deleted since, and then with the date and the data
that were written last. The keys of different messages are different. -/
theorem messages_spec (calls : List MessageCall) :
    ∃ table, runMessages calls "messages".toList = some table ∧
      (∀ triple, (table.rows.filter (IsRowOf triple)).length ≤ 1) ∧
      (∀ triple date data,
        (∃ row ∈ table.rows, IsRowOf triple row ∧ row "date".toList = date ∧
          row "message_data".toList = data) ↔
        ∃ m, LastWritten calls triple m ∧ date = .int m.date.toInt32.toInt64 ∧
          data = .blob m.messageData) ∧
      Function.Injective messageKey := by
  obtain ⟨entries, h⟩ := storesMessages_runMessages calls
  have hmem (row : Row) : row ∈ (messageLayout.table entries).rows ↔
      ∃ id m, LastWritten calls (m.triple id) m ∧ messageLayout.row (id, m) = row := by
    rw [Keyed.table, List.mem_map]
    constructor
    · rintro ⟨⟨id, m⟩, hentry, hrow⟩
      exact ⟨id, m, (h.mem_iff id m).mp hentry, hrow⟩
    · rintro ⟨id, m, hlast, hrow⟩
      exact ⟨(id, m), (h.mem_iff id m).mpr hlast, hrow⟩
  refine ⟨messageLayout.table entries, h.holds, fun triple ↦ ?_, fun triple date data ↦ ?_,
    messageKey_injective⟩
  · have hfilter : (entries.filter fun entry ↦ decide (IsRowOf triple (messageLayout.row entry))) =
        entries.filter fun entry ↦ decide (messageLayout.key entry = triple) :=
      List.filter_congr fun entry _ ↦ decide_eq_decide.mpr (isRowOf_row triple entry)
    calc ((messageLayout.table entries).rows.filter (IsRowOf triple)).length
        = (entries.filter fun entry ↦ decide (IsRowOf triple (messageLayout.row entry))).length := by
          rw [Keyed.table, List.filter_map, List.length_map]
          rfl
      _ = (entries.find? fun entry ↦ decide (messageLayout.key entry = triple)).toList.length := by
          rw [hfilter, filter_eq_find? h.nodup]
      _ ≤ 1 := Option.length_toList_le
  · constructor
    · rintro ⟨row, hrow, hkey, hdate, hdata⟩
      obtain ⟨id, m, hlast, rfl⟩ := (hmem row).mp hrow
      have htriple : m.triple id = triple := (isRowOf_row triple (id, m)).mp hkey
      exact ⟨m, htriple ▸ hlast, hdate.symm, hdata.symm⟩
    · rintro ⟨m, hlast, rfl, rfl⟩
      have hsame : LastWritten calls (m.triple triple.1) m := by
        rw [hlast.1]
        exact hlast
      exact ⟨messageLayout.row (triple.1, m), (hmem _).mpr ⟨triple.1, m, hsame, rfl⟩,
        (isRowOf_row triple (triple.1, m)).mpr hlast.1, rfl, rfl⟩

end LibTg.Tg
