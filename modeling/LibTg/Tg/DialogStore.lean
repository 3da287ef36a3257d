import LibTg.Tg.Database

/-!
# The store of dialogs (`tg/dialogs.c`)

The row of a dialog is found by its peer alone, whatever the account, and a text that is a null pointer
is left out of the `UPDATE`. `dialogs_of_separate` says when the store does what it is for: the texts
are there and hold no quote, and no two accounts write the same peer.
-/

namespace LibTg.Tg

open Sql

/-- The text of `tg_dialog_to_database`. -/
def dialogPieces (id : Int32) (d : TgDialog) : List Piece :=
  formats ["INSERT INTO 'dialogs' ('peer_id') ", "SELECT  %ld ",
    "WHERE NOT EXISTS (SELECT 1 FROM dialogs WHERE peer_id = %ld);\n"]
    [.ld d.peerId.toInt64, .ld d.peerId.toInt64] ++
  (formats ["UPDATE 'dialogs' SET "] [] ++ (tgDialogArgs.flatMap (·.update d) ++
    formats ["id = %d WHERE peer_id = %ld;\n"] [.d id, .ld d.peerId.toInt64]))

/-- `tg_dialog_to_database`, for the account `tg->id`. -/
def tgDialogToDatabase (id : Int32) (d : TgDialog) (database : Database) : Option (ℤ × Database) := do
  let sql ← strPrint (dialogPieces id d)
  some (0, (tgSqlite3Exec database sql).2)

/-- The text of `tg_get_dialogs_from_database`. -/
def dialogsQuery (id : Int32) : List Piece :=
  formats ["SELECT "] [] ++ (tgDialogArgs.flatMap (fun arg ↦ format (arg.column ++ ", ".toList) []) ++
    formats ["id FROM dialogs WHERE id = %d ", "ORDER BY 'top_message_date' DESC;"] [.d id])

def readDialog (row : List Value) : TgDialog :=
  (tgDialogArgs.zip row).foldl (fun d field ↦ field.1.read field.2 d) TgDialog.zero

/-- `tg_get_dialogs_from_database`: the dialogs that a callback which always returns 0 is given. -/
def tgGetDialogsFromDatabase (id : Int32) (database : Database) : List TgDialog :=
  (tgSqlite3ForEach database (print (dialogsQuery id))).map readDialog

/-! ## Statements -/

/-- The tokens that set a field. -/
def DialogArg.tokens (d : TgDialog) : DialogArg → List Token
  | .arg column get _ => [.quoted column.toList, .symbol '=', .int (get d).toInt64, .symbol ',']
  | .str column get _ =>
    [.quoted column.toList, .symbol '=', .quoted ((get d).getD []), .symbol ',']

/-- A text can be stored: it is there, and no quote ends the literal around it. -/
def StorableText (text : Option (List Char)) : Prop :=
  ∃ value, text = some value ∧ '\'' ∉ value

/-- Every text of the dialog can be stored. -/
structure Storable (d : TgDialog) : Prop where
  name : StorableText d.name
  topMessageText : StorableText d.topMessageText
  thumb : StorableText d.thumb

/-- The texts of a dialog are three of its fields. -/
theorem Storable.text {d : TgDialog} (h : Storable d) {column : String}
    {get : TgDialog → Option (List Char)} {set : Option (List Char) → TgDialog → TgDialog}
    (hmem : .str column get set ∈ tgDialogArgs) : StorableText (get d) := by
  simp only [tgDialogArgs, List.mem_cons, List.not_mem_nil, or_false, reduceCtorEq, false_or,
    DialogArg.str.injEq] at hmem
  rcases hmem with ⟨-, rfl, -⟩ | ⟨-, rfl, -⟩ | ⟨-, rfl, -⟩
  · exact h.name
  · exact h.topMessageText
  · exact h.thumb

theorem readPieces_update {d : TgDialog} {arg : DialogArg}
    (hstorable : ∀ column get set, arg = .str column get set → StorableText (get d)) :
    readPieces (.lexer .start) (arg.update d) = some (.lexer .start, arg.tokens d) := by
  cases arg with
  | arg column get set => rfl
  | str column get set =>
    obtain ⟨text, htext, -⟩ := hstorable column get set rfl
    rw [DialogArg.update, DialogArg.tokens, htext]
    rfl

def DialogArg.value (d : TgDialog) : DialogArg → Value
  | .arg _ get _ => .int (get d).toInt64
  | .str _ get _ => .text ((get d).getD [])

def hasPeer (peerId : UInt64) : List Comparison :=
  [⟨.column "peer_id".toList, .value (.int peerId.toInt64)⟩]

def dialogInsertStatement (d : TgDialog) : Statement :=
  .insertAbsent "dialogs".toList "peer_id".toList (.value (.int d.peerId.toInt64))
    "dialogs".toList (hasPeer d.peerId)

/-- The columns that are set afterwards. -/
def dialogSets (id : Int32) (d : TgDialog) : List (Name × Operand) :=
  tgDialogArgs.map (fun arg ↦ (arg.column, .value (arg.value d))) ++
    [("id".toList, .value (.int id.toInt64))]

/-- The statement that fills the row of a dialog. -/
def dialogUpdateStatement (id : Int32) (d : TgDialog) : Statement :=
  .update "dialogs".toList (dialogSets id d) (hasPeer d.peerId)

def insertTokens (d : TgDialog) : List Token :=
  [keyword "insert", keyword "into", .quoted "dialogs".toList, .symbol '(',
    .quoted "peer_id".toList, .symbol ')', keyword "select", .int d.peerId.toInt64,
    keyword "where", keyword "not", keyword "exists", .symbol '(', keyword "select", intToken false ['1'],
    keyword "from", keyword "dialogs", keyword "where", keyword "peer_id", .symbol '=',
    .int d.peerId.toInt64, .symbol ')', .symbol ';']

/-- The tokens behind the fields in the second statement. -/
def whereTokens (id : Int32) (d : TgDialog) : List Token :=
  [keyword "id", .symbol '=', .int id.toInt64, keyword "where", keyword "peer_id", .symbol '=',
    .int d.peerId.toInt64, .symbol ';']

/-- The tokens of both statements. -/
def dialogTokens (id : Int32) (d : TgDialog) : List Token :=
  insertTokens d ++ ([keyword "update", .quoted "dialogs".toList, keyword "set"] ++
    (tgDialogArgs.flatMap (·.tokens d) ++ whereTokens id d))

set_option maxRecDepth 8000 in
theorem statements_dialogTokens (id : Int32) (d : TgDialog) :
    statements (dialogTokens id d) =
      [some (dialogInsertStatement d), some (dialogUpdateStatement id d)] := by
  rfl

set_option maxRecDepth 4000 in
theorem readFrom_dialogPieces (id : Int32) {d : TgDialog} (hstorable : Storable d) :
    readFrom (.lexer .start) (dialogPieces id d) = some (dialogTokens id d) := by
  have hinsert : readPieces (.lexer .start) (formats ["INSERT INTO 'dialogs' ('peer_id') ",
      "SELECT  %ld ", "WHERE NOT EXISTS (SELECT 1 FROM dialogs WHERE peer_id = %ld);\n"]
      [.ld d.peerId.toInt64, .ld d.peerId.toInt64]) = some (.lexer .start, insertTokens d) :=
    readPieces_formats [_, _, _] rfl rfl
  have hupdate : readPieces (.lexer .start) (formats ["UPDATE 'dialogs' SET "] []) =
      some (.lexer .start, [keyword "update", .quoted "dialogs".toList, keyword "set"]) :=
    readPieces_formats [_] rfl rfl
  have hwhere : readFrom (.lexer .start) (formats ["id = %d WHERE peer_id = %ld;\n"]
      [.d id, .ld d.peerId.toInt64]) = some (whereTokens id d) :=
    readFrom_formats [_] rfl rfl
  have hfields : ∀ arg ∈ tgDialogArgs,
      readPieces (.lexer .start) (arg.update d) = some (.lexer .start, arg.tokens d) :=
    fun arg harg ↦ readPieces_update fun column get set h ↦ hstorable.text (h ▸ harg)
  rw [dialogPieces, dialogTokens]
  exact readFrom_append hinsert (readFrom_append hupdate (readFrom_flatMap hfields hwhere))

theorem quoteFree_dialogPieces (id : Int32) {d : TgDialog} (hstorable : Storable d) :
    QuoteFree (dialogPieces id d) := by
  have hupdates : QuoteFree (tgDialogArgs.flatMap (·.update d)) := by
    apply QuoteFree.flatMap
    intro arg harg
    have hcolumn := QuoteFree.text (quote_notMem_column arg harg)
    cases arg with
    | arg column get set =>
      have hrest : QuoteFree (format "' = %ld, ".toList [.ld (get d).toInt64]) :=
        quoteFree_of_noText (by simp)
      exact (QuoteFree.char '\'').append (hcolumn.append hrest)
    | str column get set =>
      obtain ⟨text, htext, hfree⟩ := hstorable.text harg
      have hfront : QuoteFree (format "' = '".toList []) := quoteFree_of_noText (by simp)
      have hback : QuoteFree (format "', ".toList []) := quoteFree_of_noText (by simp)
      rw [DialogArg.update, htext]
      exact (QuoteFree.char '\'').append
        (hcolumn.append (hfront.append ((QuoteFree.text hfree).append hback)))
  exact (quoteFree_of_noText (by simp)).append ((quoteFree_of_noText (by simp)).append
    (hupdates.append (quoteFree_of_noText (by simp))))

/-- The statements of `tg_dialog_to_database`. -/
theorem statements_dialogPieces (id : Int32) {d : TgDialog} (hstorable : Storable d) :
    statements (lex (print (dialogPieces id d))) =
      [some (dialogInsertStatement d), some (dialogUpdateStatement id d)] := by
  apply statements_print (quoteFree_dialogPieces id hstorable)
  rw [readFrom_dialogPieces id hstorable, Option.map_some, statements_dialogTokens]

/-! ## Rows -/

def dialogLayout : Keyed (Int32 × TgDialog) UInt64 where
  columns := dialogColumns
  key entry := entry.2.peerId
  inserted entry := ("peer_id".toList, .int entry.2.peerId.toInt64)
  sets entry := tgDialogArgs.map (fun arg ↦ (arg.column, arg.value entry.2)) ++
    [("id".toList, .int entry.1.toInt64)]
  inserted_eq h := by rw [h]
  names_eq _ _ := by
    rw [List.map_append, List.map_append, List.map_map, List.map_map, List.map_cons, List.map_cons]
    rfl

/-- Every column of a dialog has the type of its field. -/
theorem affinity_dialogColumn : ∀ arg ∈ tgDialogArgs,
    (findColumn dialogColumns arg.column).map (·.affinity) =
      some (dialogColumn arg).affinity := by
  decide +kernel

theorem nodup_dialogColumns : (tgDialogArgs.map (·.column) ++ ["id".toList]).Nodup := by
  decide +kernel

theorem map_fst_sets (entry : Int32 × TgDialog) :
    (dialogLayout.sets entry).map Prod.fst = tgDialogArgs.map (·.column) ++ ["id".toList] := by
  rw [dialogLayout, List.map_append, List.map_map, List.map_cons, List.map_nil]
  rfl

theorem row_column (entry : Int32 × TgDialog) {arg : DialogArg} (harg : arg ∈ tgDialogArgs) :
    dialogLayout.row entry arg.column = arg.value entry.2 := by
  apply assign_of_mem
  · rw [map_fst_sets]
    exact nodup_dialogColumns
  · exact List.mem_append_left _ (List.mem_map_of_mem harg)

theorem row_id (entry : Int32 × TgDialog) :
    dialogLayout.row entry "id".toList = .int entry.1.toInt64 := by
  apply assign_of_mem
  · rw [map_fst_sets]
    exact nodup_dialogColumns
  · exact List.mem_append_right _ (List.mem_singleton_self _)

/-- The field that is the key. -/
def peerArg : DialogArg := .arg "peer_id" (·.peerId) fun v d ↦ { d with peerId := v.toUInt64 }

theorem peerArg_mem : peerArg ∈ tgDialogArgs := List.mem_of_getElem? (i := 17) rfl

theorem row_peer (entry : Int32 × TgDialog) :
    dialogLayout.row entry "peer_id".toList = .int entry.2.peerId.toInt64 :=
  row_column entry peerArg_mem

theorem stored_column (d : TgDialog) {arg : DialogArg} (harg : arg ∈ tgDialogArgs) :
    stored dialogColumns arg.column (arg.value d) = arg.value d := by
  have haffinity := affinity_dialogColumn arg harg
  rw [Option.map_eq_some_iff] at haffinity
  obtain ⟨column, hcolumn, haffinity⟩ := haffinity
  rw [stored, hcolumn, Option.map_some, Option.getD_some, haffinity]
  cases arg <;> rfl

theorem peerColumn : findColumn dialogLayout.columns "peer_id".toList =
    some ⟨"peer_id".toList, .integer, true⟩ := by
  decide +kernel

/-- The condition finds the row of the peer. -/
theorem meets_hasPeer (parameter : Value) (peerId : UInt64) (entry : Int32 × TgDialog) :
    meets dialogLayout.columns parameter (hasPeer peerId) (dialogLayout.row entry) =
      decide (dialogLayout.key entry = peerId) := by
  rw [hasPeer, meets_column _ peerColumn rfl Value.noConfusion, row_peer]
  apply decide_eq_decide.mpr
  rw [Value.int.injEq, uint64_toInt64_injective.eq_iff]
  rfl

theorem meets_hasPeer_fresh (parameter : Value) (entry : Int32 × TgDialog) :
    meets dialogLayout.columns parameter (hasPeer entry.2.peerId)
      (dialogLayout.fresh entry) = true := by
  have hrow : dialogLayout.fresh entry "peer_id".toList = .int entry.2.peerId.toInt64 := by rfl
  rw [hasPeer, meets_column _ peerColumn rfl Value.noConfusion, hrow]
  exact decide_eq_true rfl

/-- Rows with different peers. -/
theorem unique_dialogs {rows : List Row} {peers : List UInt64}
    (hrows : rows.map (· "peer_id".toList) = peers.map fun peerId ↦ .int peerId.toInt64)
    (hnodup : peers.Nodup) : Table.Unique ⟨dialogLayout.columns, rows⟩ := by
  have hname : ∀ column ∈ dialogColumns, column.unique = true → column.name = "peer_id".toList := by
    decide +kernel
  apply unique_of_nodup hname
  rw [hrows]
  apply hnodup.map
  intro first second h
  exact uint64_toInt64_injective (Value.int.inj h)

theorem map_peer (entries : List (Int32 × TgDialog)) :
    (entries.map dialogLayout.row).map (· "peer_id".toList) =
      (entries.map dialogLayout.key).map fun peerId ↦ .int peerId.toInt64 := by
  rw [List.map_map, List.map_map]
  apply List.map_congr_left
  intro entry _
  rw [Function.comp_apply, Function.comp_apply, row_peer]
  rfl

/-! ## Calls -/

/-- The table holds a list of dialogs with different peers. -/
structure HoldsDialogs (database : Database) (entries : List (Int32 × TgDialog)) : Prop where
  table : database "dialogs".toList = some (dialogLayout.table entries)
  nodup : (entries.map dialogLayout.key).Nodup

theorem resolves_dialogUpdate (id : Int32) (d : TgDialog) :
    ((dialogSets id d).all fun set ↦ (findColumn dialogLayout.columns set.1).isSome &&
      set.2.resolves dialogLayout.columns) ∧
    resolves dialogLayout.columns (hasPeer d.peerId) := by
  have hcolumns : ∀ arg ∈ tgDialogArgs, (findColumn dialogColumns arg.column).isSome := by
    intro arg harg
    have haffinity := affinity_dialogColumn arg harg
    rw [Option.map_eq_some_iff] at haffinity
    obtain ⟨column, hcolumn, -⟩ := haffinity
    exact Option.isSome_iff_exists.mpr ⟨column, hcolumn⟩
  have hpeer : resolves dialogLayout.columns (hasPeer d.peerId) := by
    simp only [resolves, hasPeer, List.all_cons, List.all_nil, Operand.resolves, peerColumn,
      Option.isSome_some, Bool.and_true]
  refine ⟨?_, hpeer⟩
  rw [List.all_eq_true]
  intro set hset
  rw [dialogSets, List.mem_append, List.mem_map, List.mem_singleton] at hset
  rcases hset with ⟨arg, harg, rfl⟩ | rfl
  · simp only [Operand.resolves, Bool.and_true]
    exact hcolumns arg harg
  · rfl

theorem assignments_dialogUpdate (id : Int32) (d : TgDialog) (row : Row) :
    assignments dialogLayout.columns .null (dialogSets id d) row = dialogLayout.sets (id, d) := by
  rw [assignments, dialogSets, List.map_append, List.map_map, List.map_cons, List.map_nil]
  apply congrArg₂ (· ++ ·)
  · apply List.map_congr_left
    intro arg harg
    exact congrArg (fun value ↦ (arg.column, value)) (stored_column d harg)
  · rfl

/-- The text of the statements fits into a `struct str`. -/
def FitsStr (id : Int32) (d : TgDialog) : Prop := (print (dialogPieces id d)).length < Tl.strMax

instance (id : Int32) (d : TgDialog) : Decidable (FitsStr id d) :=
  inferInstanceAs (Decidable (_ < _))

theorem tgDialogToDatabase_spec {database : Database} {entries : List (Int32 × TgDialog)}
    (h : HoldsDialogs database entries) {id : Int32} {d : TgDialog} (hstorable : Storable d)
    (hfits : FitsStr id d) :
    tgDialogToDatabase id d database = some (0, Function.update database "dialogs".toList
      (some (dialogLayout.table (upsert dialogLayout.key entries (id, d))))) := by
  have hinsert : (findColumn dialogLayout.columns "peer_id".toList).isSome ∧
      (Operand.value (.int d.peerId.toInt64)).resolves [] ∧
      resolves dialogLayout.columns (hasPeer d.peerId) :=
    ⟨by rw [peerColumn]; rfl, rfl, (resolves_dialogUpdate id d).2⟩
  have hinserted : dialogLayout.inserted (id, d) = ("peer_id".toList,
      stored dialogLayout.columns "peer_id".toList
        ((Operand.value (.int d.peerId.toInt64)).eval .null Row.empty)) := by
    rw [stored, peerColumn]
    rfl
  have hmeets (other : Int32 × TgDialog) := meets_hasPeer .null d.peerId other
  have hfreshRow : dialogLayout.fresh (id, d) "peer_id".toList = .int d.peerId.toInt64 := by rfl
  have hnew (hothers : ∀ other ∈ entries, dialogLayout.key other ≠ dialogLayout.key (id, d)) :
      Table.Unique ⟨dialogLayout.columns,
        entries.map dialogLayout.row ++ [dialogLayout.fresh (id, d)]⟩ := by
    have hnodup : (entries.map dialogLayout.key ++ [d.peerId]).Nodup := by
      rw [List.nodup_append]
      refine ⟨h.nodup, List.nodup_singleton _, fun first hfirst second hsecond ↦ ?_⟩
      obtain ⟨other, hother, rfl⟩ := List.mem_map.mp hfirst
      rw [List.mem_singleton.mp hsecond]
      exact hothers other hother
    apply unique_dialogs _ hnodup
    rw [List.map_append, map_peer, List.map_append, List.map_cons, List.map_cons, hfreshRow]
    rfl
  obtain ⟨inserted, hfirst, hsecond⟩ := Keyed.execute_upsert h.table hinsert hinserted
    (fun other _ ↦ hmeets other) (resolves_dialogUpdate id d) (assignments_dialogUpdate id d)
    (fun other _ ↦ hmeets other) (meets_hasPeer_fresh .null (id, d)) hnew
    (unique_dialogs (map_peer _) (nodup_upsert _ h.nodup))
  rw [tgDialogToDatabase, strPrint_of_fits hfits, Option.bind_eq_bind, Option.bind_some,
    tgSqlite3Exec_of_statements (statements_dialogPieces id hstorable) hfirst hsecond]

/-! ## Reading -/

/-- The query of `tg_get_dialogs_from_database`. -/
def dialogsSelect (id : Int32) : Select :=
  ⟨tgDialogArgs.map (·.column) ++ ["id".toList], "dialogs".toList,
    [⟨.column "id".toList, .value (.int id.toInt64)⟩]⟩

/-- The tokens behind the columns of the query. -/
def fromTokens (id : Int32) : List Token :=
  [keyword "id", keyword "from", keyword "dialogs", keyword "where", keyword "id", .symbol '=',
    .int id.toInt64, keyword "order", keyword "by", .quoted "top_message_date".toList,
    keyword "desc", .symbol ';']

theorem readPieces_column : ∀ arg ∈ tgDialogArgs,
    readPieces (.lexer .start) (format (arg.column ++ ", ".toList) []) =
      some (.lexer .start, [.word arg.column, .symbol ',']) := by
  decide +kernel

set_option maxRecDepth 8000 in
theorem parseSelect_dialogs (id : Int32) :
    (splitStatements ([keyword "select"] ++
      (tgDialogArgs.flatMap (fun arg ↦ [.word arg.column, .symbol ',']) ++
        fromTokens id))).head?.bind parseSelect = some (dialogsSelect id) := by
  rfl

set_option maxRecDepth 4000 in
theorem query_dialogsQuery (database : Database) (id : Int32) :
    query database (print (dialogsQuery id)) = selectRows database (dialogsSelect id) := by
  have hselect : readPieces (.lexer .start) (formats ["SELECT "] []) =
      some (.lexer .start, [keyword "select"]) :=
    readPieces_formats [_] rfl rfl
  have hfrom : readFrom (.lexer .start) (formats ["id FROM dialogs WHERE id = %d ",
      "ORDER BY 'top_message_date' DESC;"] [.d id]) = some (fromTokens id) :=
    readFrom_formats [_, _] rfl rfl
  have hfree : QuoteFree (dialogsQuery id) :=
    (quoteFree_of_noText (by simp)).append
      ((QuoteFree.flatMap fun _ _ ↦ quoteFree_of_noText (by simp)).append
        (quoteFree_of_noText (by simp)))
  have hread := readFrom_append hselect (readFrom_flatMap readPieces_column hfrom)
  have hquery := query_print database hfree (by
    rw [dialogsQuery, hread, Option.map_some, parseSelect_dialogs])
  exact hquery

theorem toUInt32_toInt64 (value : UInt32) : toUInt32 value.toUInt64.toInt64 = value := by
  simp [toUInt32]

theorem toBool_toInt64 (value : Bool) : toBool value.toUInt64.toInt64 = value := by
  cases value <;> rfl

/-- The fields of a dialog come back from the columns of its row. -/
theorem readDialog_value {d : TgDialog} (hstorable : Storable d) (rest : List Value) :
    readDialog (tgDialogArgs.map (·.value d) ++ rest) = d := by
  obtain ⟨⟨name, hname, -⟩, ⟨text, htext, -⟩, ⟨thumb, hthumb, -⟩⟩ := hstorable
  cases d
  simp only at hname htext hthumb
  simp only [readDialog, tgDialogArgs, List.map_cons, List.cons_append, List.zip_cons_cons,
    List.foldl_cons, List.map_nil, List.zip_nil_left, List.foldl_nil, DialogArg.read,
    DialogArg.value, columnInt64, columnText, hname, htext, hthumb, Option.getD_some,
    toUInt32_toInt64, toBool_toInt64, UInt64.toUInt64_toInt64]

/-- The dialogs of an account are reported as they were written. -/
theorem tgGetDialogsFromDatabase_spec {database : Database} {entries : List (Int32 × TgDialog)}
    (h : HoldsDialogs database entries) (hstorable : ∀ entry ∈ entries, Storable entry.2)
    (id : Int32) : tgGetDialogsFromDatabase id database =
      (entries.filter fun entry ↦ entry.1 = id).map Prod.snd := by
  have hresolves : ((dialogsSelect id).columns.all fun name ↦
      (findColumn dialogLayout.columns name).isSome) ∧
      resolves dialogLayout.columns (dialogsSelect id).condition := by
    constructor
    · have hcolumns : (tgDialogArgs.map (·.column) ++ ["id".toList]).all fun name ↦
          (findColumn dialogColumns name).isSome := by
        decide +kernel
      exact hcolumns
    · rfl
  have hmeets (entry : Int32 × TgDialog) :
      meets dialogLayout.columns .null (dialogsSelect id).condition (dialogLayout.row entry) =
        decide (entry.1 = id) := by
    rw [dialogsSelect, meets_column idColumn rfl rfl Value.noConfusion, row_id]
    apply decide_eq_decide.mpr
    rw [Value.int.injEq, int32_toInt64_injective.eq_iff]
  have hselect : selectRows database (dialogsSelect id) = _ :=
    Keyed.selectRows_eq h.table hresolves fun entry _ ↦ hmeets entry
  rw [tgGetDialogsFromDatabase, tgSqlite3ForEach, query_dialogsQuery, hselect, Option.getD_some,
    List.map_map]
  apply List.map_congr_left
  intro entry hentry
  have hrow : (dialogsSelect id).columns.map (dialogLayout.row entry) =
      tgDialogArgs.map (·.value entry.2) ++ [.int entry.1.toInt64] := by
    rw [dialogsSelect, List.map_append, List.map_map, List.map_cons, List.map_nil, row_id]
    apply congrArg (· ++ [Value.int entry.1.toInt64])
    apply List.map_congr_left
    intro arg harg
    rw [Function.comp_apply, row_column entry harg]
  rw [Function.comp_apply, hrow]
  exact readDialog_value (hstorable entry (List.mem_of_mem_filter hentry)) _

/-! ## Sequences of calls -/

def writeDialog (database : Database) (call : Int32 × TgDialog) : Option Database :=
  (tgDialogToDatabase call.1 call.2 database).map Prod.snd

/-- The calls of any accounts, on a new database. -/
def runDialogs (calls : List (Int32 × TgDialog)) : Option Database :=
  run writeDialog (databaseInit Database.empty) calls

/-- An account has written a dialog, and no other one for that peer since. -/
def LastDialog (calls : List (Int32 × TgDialog)) (id : Int32) (d : TgDialog) : Prop :=
  LastIn calls (id, d) fun call ↦ call.1 = id ∧ call.2.peerId = d.peerId

def otherRows (id : Int32) (database : Database) : Option (List Row) :=
  (database "dialogs".toList).map fun table ↦
    table.rows.filter (· "id".toList ≠ .int id.toInt64)

/-- A call of an account leaves the rows of the others and the other tables alone. -/
def LeavesOthers (id : Int32) (before after : Database) : Prop :=
  otherRows id after = otherRows id before ∧
    ∀ name ≠ "dialogs".toList, after name = before name

/-- What the store is for: an account is told what it wrote last for every peer, each peer once and
nothing else, and no call has changed what is not its own. -/
def DialogsKept (calls : List (Int32 × TgDialog)) : Prop :=
  (∃ database, runDialogs calls = some database ∧ ∀ id,
    ((tgGetDialogsFromDatabase id database).map (·.peerId)).Nodup ∧
      ∀ d, d ∈ tgGetDialogsFromDatabase id database ↔ LastDialog calls id d) ∧
  ∀ before call after, calls = before ++ call :: after →
    ∃ database next, runDialogs before = some database ∧
      runDialogs (before ++ [call]) = some next ∧ LeavesOthers call.1 database next

/-- The texts of every call can be stored, and a peer is written by one account only. -/
structure Separate (calls : List (Int32 × TgDialog)) : Prop where
  storable : ∀ call ∈ calls, Storable call.2
  fits : ∀ call ∈ calls, FitsStr call.1 call.2
  account : ∀ first ∈ calls, ∀ second ∈ calls, first.2.peerId = second.2.peerId →
    first.1 = second.1

def dialogEntries (calls : List (Int32 × TgDialog)) : List (Int32 × TgDialog) :=
  upserts dialogLayout.key calls

theorem runDialogs_append {calls : List (Int32 × TgDialog)} {database : Database}
    (hcalls : runDialogs calls = some database) (call : Int32 × TgDialog) :
    runDialogs (calls ++ [call]) = writeDialog database call := by
  rw [runDialogs, run_append, ← runDialogs, hcalls, Option.bind_some, run_cons]
  exact Option.bind_fun_some _

/-- One call, for a database that holds some dialogs. -/
theorem writeDialog_spec {database : Database} {entries : List (Int32 × TgDialog)}
    (h : HoldsDialogs database entries) {call : Int32 × TgDialog} (hstorable : Storable call.2)
    (hfits : FitsStr call.1 call.2) :
    writeDialog database call = some (Function.update database "dialogs".toList
      (some (dialogLayout.table (upsert dialogLayout.key entries call)))) := by
  rw [writeDialog, tgDialogToDatabase_spec h hstorable hfits]
  rfl

theorem holdsDialogs_runDialogs {calls : List (Int32 × TgDialog)}
    (hstorable : ∀ call ∈ calls, Storable call.2) (hfits : ∀ call ∈ calls, FitsStr call.1 call.2) :
    ∃ database, runDialogs calls = some database ∧
      HoldsDialogs database (dialogEntries calls) := by
  induction calls using List.reverseRecOn with
  | nil =>
    have hothers : "dialogs".toList ∉ accountTables ∧ "dialogs".toList ≠ "messages".toList := by
      decide +kernel
    refine ⟨databaseInit Database.empty, rfl, ?_, List.nodup_nil⟩
    rw [databaseInit_apply, if_neg hothers.1, if_neg hothers.2, if_pos rfl]
    rfl
  | append_singleton calls call ih =>
    obtain ⟨database, hrun, hbefore⟩ :=
      ih (fun other hother ↦ hstorable other (List.mem_append_left _ hother))
        fun other hother ↦ hfits other (List.mem_append_left _ hother)
    have hmem : call ∈ calls ++ [call] := List.mem_append_right _ (List.mem_singleton_self _)
    have hwrite := writeDialog_spec hbefore (hstorable call hmem) (hfits call hmem)
    refine ⟨_, (runDialogs_append hrun call).trans hwrite, ?_⟩
    have hentries : dialogEntries (calls ++ [call]) =
        upsert dialogLayout.key (dialogEntries calls) call := by
      rw [dialogEntries, upserts_append, dialogEntries]
    rw [hentries]
    refine ⟨?_, nodup_upsert _ hbefore.nodup⟩
    rw [Function.update_self]

/-- While peers are written by one account each, the rows are the dialogs written last. -/
theorem mem_dialogEntries {calls : List (Int32 × TgDialog)} (h : Separate calls) {id : Int32}
    {d : TgDialog} : (id, d) ∈ dialogEntries calls ↔ LastDialog calls id d := by
  have hsame (hmem : (id, d) ∈ calls) :
      LastIn calls (id, d) (fun later ↦ dialogLayout.key later = d.peerId) ↔
        LastDialog calls id d := by
    apply lastIn_congr
    intro later hlater
    constructor
    · exact fun heq ↦ ⟨h.account later hlater (id, d) hmem heq, heq⟩
    · exact fun hboth ↦ hboth.2
  rw [dialogEntries, mem_upserts]
  exact ⟨fun hlast ↦ (hsame hlast.mem).mp hlast, fun hlast ↦ (hsame hlast.mem).mpr hlast⟩

/-- A row more for a peer leaves the rows of the others alone if the peer is not theirs. -/
theorem leavesOthers_upsert {database : Database} {entries : List (Int32 × TgDialog)}
    (h : HoldsDialogs database entries) {call : Int32 × TgDialog}
    (hpeer : ∀ entry ∈ entries, entry.2.peerId = call.2.peerId → entry.1 = call.1) :
    LeavesOthers call.1 database (Function.update database "dialogs".toList
      (some (dialogLayout.table (upsert dialogLayout.key entries call)))) := by
  have hother (entry : Int32 × TgDialog) :
      decide (dialogLayout.row entry "id".toList ≠ .int call.1.toInt64) =
        ! decide (entry.1 = call.1) := by
    rw [row_id, decide_not]
    apply congrArg
    apply decide_eq_decide.mpr
    rw [Value.int.injEq, int32_toInt64_injective.eq_iff]
  have hrows (found : List (Int32 × TgDialog)) :
      (dialogLayout.table found).rows.filter (· "id".toList ≠ .int call.1.toInt64) =
        (found.filter fun entry ↦ ! decide (entry.1 = call.1)).map dialogLayout.row := by
    rw [Keyed.table, List.filter_map]
    apply congrArg
    apply List.filter_congr
    intro entry _
    exact hother entry
  have hkept : (upsert dialogLayout.key entries call).filter (fun entry ↦
      ! decide (entry.1 = call.1)) = entries.filter fun entry ↦ ! decide (entry.1 = call.1) := by
    apply filter_upsert
    · simp
    · intro other hmem hkey
      simp [hpeer other hmem hkey]
  constructor
  · rw [otherRows, otherRows, Function.update_self, h.table, Option.map_some, Option.map_some,
      hrows, hrows, hkept]
  · intro name hname
    exact Function.update_of_ne hname _ _

/-- In a run in which every text can be stored and no two accounts write the same peer, the store
does what it is for. -/
theorem dialogs_of_separate (calls : List (Int32 × TgDialog)) (h : Separate calls) :
    DialogsKept calls := by
  constructor
  · obtain ⟨database, hrun, hholds⟩ := holdsDialogs_runDialogs h.storable h.fits
    have hstorable : ∀ entry ∈ dialogEntries calls, Storable entry.2 :=
      fun entry hentry ↦ h.storable entry (mem_of_mem_upserts hentry)
    refine ⟨database, hrun, fun id ↦ ?_⟩
    rw [tgGetDialogsFromDatabase_spec hholds hstorable]
    constructor
    · rw [List.map_map]
      exact hholds.nodup.sublist (List.filter_sublist.map _)
    · intro d
      rw [← mem_dialogEntries h, List.mem_map]
      constructor
      · rintro ⟨⟨other, found⟩, hfound, rfl⟩
        rw [List.mem_filter, decide_eq_true_eq] at hfound
        obtain ⟨hmem, rfl⟩ := hfound
        exact hmem
      · exact fun hmem ↦ ⟨(id, d), List.mem_filter.mpr ⟨hmem, decide_eq_true rfl⟩, rfl⟩
  · rintro before call after rfl
    have hcall : call ∈ before ++ call :: after :=
      List.mem_append_right _ List.mem_cons_self
    obtain ⟨database, hrun, hholds⟩ := holdsDialogs_runDialogs
      (fun other hother ↦ h.storable other (List.mem_append_left _ hother))
      fun other hother ↦ h.fits other (List.mem_append_left _ hother)
    have hwrite := writeDialog_spec hholds (h.storable call hcall) (h.fits call hcall)
    refine ⟨database, _, hrun, (runDialogs_append hrun call).trans hwrite, ?_⟩
    apply leavesOthers_upsert hholds
    intro entry hentry hpeer
    exact h.account entry (List.mem_append_left _ (mem_of_mem_upserts hentry)) call hcall hpeer

/-- A chat of which two accounts are members. -/
def sharedDialog : TgDialog :=
  { TgDialog.zero with
    name := some "chat".toList, topMessageText := some [], thumb := some [], peerId := 7 }

/-- Each account writes a dialog of its own. -/
theorem dialogs_of_separate_two :
    Separate [(1, sharedDialog), (2, { sharedDialog with peerId := 8 })] ∧
      DialogsKept [(1, sharedDialog), (2, { sharedDialog with peerId := 8 })] := by
  have hempty : StorableText (some []) := ⟨[], rfl, List.not_mem_nil⟩
  have hname : StorableText (some "chat".toList) := ⟨_, rfl, by decide +kernel⟩
  have hseparate : Separate [(1, sharedDialog), (2, { sharedDialog with peerId := 8 })] := by
    constructor
    · intro call hcall
      rw [List.mem_cons, List.mem_singleton] at hcall
      rcases hcall with rfl | rfl <;> exact ⟨hname, hempty, hempty⟩
    · decide +kernel
    · decide +kernel
  exact ⟨hseparate, dialogs_of_separate _ hseparate⟩

/-- Two accounts write the dialog of the same chat, and the first one is told nothing. -/
theorem not_dialogsKept_shared : ¬ DialogsKept [(1, sharedDialog), (2, sharedDialog)] := by
  have hempty : StorableText (some []) := ⟨[], rfl, List.not_mem_nil⟩
  have hname : StorableText (some "chat".toList) := ⟨_, rfl, by decide +kernel⟩
  have hstorable : ∀ call ∈ [((1 : Int32), sharedDialog), (2, sharedDialog)], Storable call.2 := by
    intro call hcall
    rw [List.mem_cons, List.mem_singleton] at hcall
    rcases hcall with rfl | rfl <;> exact ⟨hname, hempty, hempty⟩
  obtain ⟨database, hrun, hholds⟩ := holdsDialogs_runDialogs hstorable (by decide +kernel)
  have hreported : tgGetDialogsFromDatabase 1 database = [] := by
    rw [tgGetDialogsFromDatabase_spec hholds
      fun entry hentry ↦ hstorable entry (mem_of_mem_upserts hentry)]
    decide +kernel
  have hlast : LastDialog [(1, sharedDialog), (2, sharedDialog)] 1 sharedDialog :=
    ⟨[], [(2, sharedDialog)], rfl, by decide +kernel⟩
  rintro ⟨⟨other, hother, hkept⟩, -⟩
  rw [hrun, Option.some.injEq] at hother
  rw [← hother] at hkept
  have hmem := ((hkept 1).2 sharedDialog).mpr hlast
  rw [hreported] at hmem
  exact absurd hmem List.not_mem_nil

end LibTg.Tg
