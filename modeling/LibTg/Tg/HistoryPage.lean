import LibTg.Sql.Page
import LibTg.Tg.MessageStore
import LibTg.Tg.Updates

/-!
# A page of the history (`tg/messages.c`)

`tg_get_messages_from_database` reads the messages of a peer below a date. `messages.h` promises the
number of messages, and that a callback can stop it. The statement orders by a literal, so the page
is what stands first in the table; the value of the callback is not looked at, and the function ends
without a `return`.
-/

namespace LibTg.Tg

open LibTg.Tl Sql

def pageSql (id : Int32) (peerId : UInt64) (offsetDate limit : Int32) : List Char :=
  sprintf ["SELECT message_data ", "FROM messages ", "WHERE id = %d AND peer_id = %ld ",
    "AND date < %d AND date > 0 ", "ORDER BY 'date' DESC LIMIT %d;"]
    [.d id, .ld peerId.toInt64, .d offsetDate, .d limit]

/-- What a call does: the messages that the callback is called with, and the value that is returned.
A function that ends without a `return` has none. -/
structure PageRun where
  calls : List TgMessageT
  returned : Option ℤ
  deriving DecidableEq, Repr

section Run

variable (codec : Codec) (deserialize : List UInt8 → Option TlAnyMessage) (callback : Bool)

/-- A round of the loop over the rows: the message that is reported, if there is one, unless a null
pointer has been followed. -/
def pageRound (row : List Value) : Option (List TgMessageT) :=
  match deserialize (columnBlob (row.headD .null)) with
  | none => some []
  | some tl => do
    let tgm ← tgMessageFromTlUnknown codec (some TgMessageT.zero) (some tl)
    some (if callback then tgm.toList else [])

/-- `tg_get_messages_from_database`, with whether there is a callback. -/
def tgGetMessagesFromDatabase (database : Database) (id : Int32) (peerId : UInt64)
    (offsetDate limit : Int32) : Option PageRun := do
  let rows := (queryPage database (pageSql id peerId offsetDate limit)).getD []
  let calls ← rows.mapM (pageRound codec deserialize callback)
  some ⟨calls.flatten, none⟩

end Run

/-! ## The promise -/

/-- A row holds a message of the account and the peer with a date between zero and the offset. -/
def IsMatch (id : Int32) (peerId : UInt64) (offsetDate : Int32) (row : Row) : Prop :=
  row "id".toList = .int id.toInt64 ∧ row "peer_id".toList = .int peerId.toInt64 ∧
    Value.less (row "date".toList) (.int offsetDate.toInt64) = true ∧
    Value.less (.int 0) (row "date".toList) = true

instance (id : Int32) (peerId : UInt64) (offsetDate : Int32) (row : Row) :
    Decidable (IsMatch id peerId offsetDate row) := by
  unfold IsMatch
  infer_instance

/-- The first row is not newer than the second. -/
def NotNewer (first second : Row) : Prop :=
  Value.less (second "date".toList) (first "date".toList) = false

/-- A page holds the newest of some rows, the newest first. -/
def IsNewest (limit : ℕ) (rows page : List Row) : Prop :=
  page.length = min limit rows.length ∧ page.Pairwise (fun first second ↦ NotNewer second first) ∧
    ∃ others, (page ++ others).Perm rows ∧ ∀ other ∈ others, ∀ row ∈ page, NotNewer other row

section Promise

variable (codec : Codec) (deserialize : List UInt8 → Option TlAnyMessage)

def rowMessage (row : Row) : Option TgMessageT :=
  (deserialize (columnBlob (row "message_data".toList))).bind (·.convert codec)

/-- The calls of a callback, up to the first that does not return zero. -/
def callsUntil (callback : ℕ → TgMessageT → Int32) : ℕ → List TgMessageT → List TgMessageT
  | _, [] => []
  | count, tgm :: rest =>
    if callback count tgm = 0 then tgm :: callsUntil callback (count + 1) rest else [tgm]

def messageRows (database : Database) : List Row :=
  ((database "messages".toList).map Table.rows).getD []

/-- A call reports the newest messages and returns their number. -/
def ReportsPage (database : Database) (id : Int32) (peerId : UInt64) (offsetDate limit : Int32)
    (callback : ℕ → TgMessageT → Int32) : Prop :=
  ∃ calls page,
    tgGetMessagesFromDatabase codec deserialize true database id peerId offsetDate limit =
      some ⟨calls, some calls.length⟩ ∧
    IsNewest limit.toInt.toNat
      ((messageRows database).filter (IsMatch id peerId offsetDate ·)) page ∧
    calls = callsUntil callback 0 (page.filterMap (rowMessage codec deserialize))

/-! ## What is reported -/

/-- The comparisons of the statement. -/
def pageTests (id : Int32) (peerId : UInt64) (offsetDate : Int32) : List Test :=
  [⟨.column "id".toList, .equal, .value (.int id.toInt64)⟩,
    ⟨.column "peer_id".toList, .equal, .value (.int peerId.toInt64)⟩,
    ⟨.column "date".toList, .less, .value (.int offsetDate.toInt64)⟩,
    ⟨.column "date".toList, .greater, .value (.int 0)⟩]

set_option maxRecDepth 4000 in
/-- The order of the statement is a text. -/
theorem queryPage_pageSql (database : Database) (id : Int32) (peerId : UInt64)
    (offsetDate limit : Int32) :
    queryPage database (pageSql id peerId offsetDate limit) =
      selectPage database ⟨["message_data".toList], "messages".toList,
        pageTests id peerId offsetDate, .value (.text "date".toList), limit.toInt64⟩ := by
  have hpage : queryPage database (pageSql id peerId offsetDate limit) =
      (some (⟨["message_data".toList], "messages".toList, pageTests id peerId offsetDate,
        .value (.text "date".toList), limit.toInt64⟩ : Page)).bind (selectPage database) :=
    queryPage_sprintf [_, _, _, _, _] rfl database (by simp) rfl
  exact hpage

theorem meetsTests_pageTests (id : Int32) (peerId : UInt64) (offsetDate : Int32) (row : Row) :
    meetsTests messageColumns (pageTests id peerId offsetDate) row =
      decide (IsMatch id peerId offsetDate row) := by
  have hid := Test.holds_int (by decide +kernel : findColumn messageColumns "id".toList =
    some idColumn) rfl
  have hpeer := Test.holds_int (by decide +kernel : findColumn messageColumns "peer_id".toList =
    some ⟨"peer_id".toList, .integer, false⟩) rfl
  have hdate := Test.holds_int (by decide +kernel : findColumn messageColumns "date".toList =
    some ⟨"date".toList, .integer, false⟩) rfl
  rw [Bool.eq_iff_iff, decide_eq_true_iff]
  unfold meetsTests pageTests IsMatch
  simp only [List.all_cons, List.all_nil, Bool.and_true, hid, hpeer, hdate, Relation.holds,
    Bool.and_eq_true, decide_eq_true_eq]
  constructor
  · rintro ⟨⟨-, hidEq⟩, ⟨-, hpeerEq⟩, ⟨-, hbelow⟩, -, habove⟩
    exact ⟨hidEq, hpeerEq, hbelow, habove⟩
  · rintro ⟨hidEq, hpeerEq, hbelow, habove⟩
    have hnull : row "date".toList ≠ .null := by
      intro heq
      rw [heq] at habove
      cases habove
    have hint {name : Name} {value : Int64} (heq : row name = .int value) : row name ≠ .null := by
      rw [heq]
      exact Value.noConfusion
    exact ⟨⟨hint hidEq, hidEq⟩, ⟨hint hpeerEq, hpeerEq⟩, ⟨hnull, hbelow⟩, hnull, habove⟩

/-- The rows that are visited: those that match, as they stand in the table, up to the limit. -/
theorem queryPage_messages {database : Database} {rows : List Row}
    (hdatabase : database "messages".toList = some ⟨messageColumns, rows⟩) (id : Int32)
    (peerId : UInt64) (offsetDate limit : Int32) :
    queryPage database (pageSql id peerId offsetDate limit) =
      some ((limitRows limit.toInt64 (rows.filter (IsMatch id peerId offsetDate ·))).map
        fun row ↦ [row "message_data".toList]) := by
  have hresolves : (["message_data".toList].all
      fun name ↦ (findColumn messageColumns name).isSome) ∧
      (pageTests id peerId offsetDate).all (fun test ↦ test.left.resolves messageColumns &&
        test.right.resolves messageColumns) ∧
      (Operand.value (.text "date".toList)).resolves messageColumns := ⟨rfl, rfl, rfl⟩
  rw [queryPage_pageSql]
  simp only [selectPage, hdatabase, Option.bind_eq_bind, Option.bind_some, if_pos hresolves,
    Page.rows, sortRows_value, List.map_cons, List.map_nil]
  congr 4
  funext row
  exact meetsTests_pageTests id peerId offsetDate row

variable {codec deserialize}

/-- A row whose data is a message that can be converted, or nothing, is reported as this message. -/
theorem pageRound_eq {row : Row}
    (hconvert : ∀ tl, deserialize (columnBlob (row "message_data".toList)) = some tl →
      tl.convert codec ≠ none) :
    pageRound codec deserialize true [row "message_data".toList] =
      some (rowMessage codec deserialize row).toList := by
  unfold pageRound rowMessage
  rw [List.headD_cons]
  cases htl : deserialize (columnBlob (row "message_data".toList)) with
  | none => rfl
  | some tl =>
    obtain ⟨tgm, htgm⟩ := Option.ne_none_iff_exists'.mp (hconvert tl htl)
    rw [Option.bind_some, htgm]
    cases tl with
    | message message =>
      have hmessage : tgMessageFromTl codec message = some tgm := htgm
      simp only [tgMessageFromTlUnknown, hmessage]
      rfl
    | messageService message =>
      have hmessage : tgMessageFromTlService codec message = some tgm := htgm
      simp only [tgMessageFromTlUnknown, hmessage]
      rfl
    | other id => cases htgm

theorem mapM_pageRound {rows : List Row}
    (hconvert : ∀ row ∈ rows, ∀ tl, deserialize (columnBlob (row "message_data".toList)) = some tl →
      tl.convert codec ≠ none) :
    (rows.map fun row ↦ [row "message_data".toList]).mapM (pageRound codec deserialize true) =
      some (rows.map fun row ↦ (rowMessage codec deserialize row).toList) := by
  induction rows with
  | nil => rfl
  | cons row rows ih =>
    rw [List.map_cons, List.mapM_cons, pageRound_eq (hconvert row List.mem_cons_self),
      ih fun other hother ↦ hconvert other (List.mem_cons_of_mem row hother)]
    rfl

/-- The messages that are reported, whatever the callback returns: those of the rows that are visited.
Nothing is returned. -/
theorem tgGetMessagesFromDatabase_eq {database : Database} {rows : List Row}
    (hdatabase : database "messages".toList = some ⟨messageColumns, rows⟩)
    (hconvert : ∀ row ∈ rows, ∀ tl, deserialize (columnBlob (row "message_data".toList)) = some tl →
      tl.convert codec ≠ none) (id : Int32) (peerId : UInt64) (offsetDate limit : Int32) :
    tgGetMessagesFromDatabase codec deserialize true database id peerId offsetDate limit =
      some ⟨(limitRows limit.toInt64 (rows.filter (IsMatch id peerId offsetDate ·))).filterMap
        (rowMessage codec deserialize), none⟩ := by
  have hrounds := mapM_pageRound fun row
      (hrow : row ∈ limitRows limit.toInt64 (rows.filter (IsMatch id peerId offsetDate ·))) ↦
    hconvert row (List.mem_of_mem_filter (mem_of_mem_limitRows hrow))
  unfold tgGetMessagesFromDatabase
  simp only [queryPage_messages hdatabase, Option.getD_some, hrounds, Option.bind_eq_bind,
    Option.bind_some]
  rw [List.filterMap_eq_flatMap_toList, List.flatMap_def]

theorem isNewest_of_sorted {id : Int32} {peerId : UInt64} {offsetDate : Int32} {rows : List Row}
    (limit : ℕ)
    (hsorted : (rows.filter (IsMatch id peerId offsetDate ·)).Pairwise
      fun first second ↦ NotNewer second first) :
    IsNewest limit (rows.filter (IsMatch id peerId offsetDate ·))
      ((rows.filter (IsMatch id peerId offsetDate ·)).take limit) := by
  refine ⟨List.length_take, hsorted.sublist (List.take_sublist limit _),
    (rows.filter (IsMatch id peerId offsetDate ·)).drop limit, ?_, ?_⟩
  · rw [List.take_append_drop]
  · intro other hother row hrow
    rw [← List.take_append_drop limit (rows.filter (IsMatch id peerId offsetDate ·)),
      List.pairwise_append] at hsorted
    exact hsorted.2.2 row hrow other hother

/-- Where the matching rows stand in the table with the newest first, a callback that returns zero is
called with the newest. -/
theorem calls_of_sorted {database : Database} {rows : List Row}
    (hdatabase : database "messages".toList = some ⟨messageColumns, rows⟩)
    (hconvert : ∀ row ∈ rows, ∀ tl, deserialize (columnBlob (row "message_data".toList)) = some tl →
      tl.convert codec ≠ none) {id : Int32} {peerId : UInt64} {offsetDate limit : Int32}
    (hlimit : 0 ≤ limit.toInt)
    (hsorted : (rows.filter (IsMatch id peerId offsetDate ·)).Pairwise
      fun first second ↦ NotNewer second first) :
    ∃ page, IsNewest limit.toInt.toNat (rows.filter (IsMatch id peerId offsetDate ·)) page ∧
      tgGetMessagesFromDatabase codec deserialize true database id peerId offsetDate limit =
        some ⟨page.filterMap (rowMessage codec deserialize), none⟩ := by
  refine ⟨_, isNewest_of_sorted limit.toInt.toNat hsorted, ?_⟩
  rw [tgGetMessagesFromDatabase_eq hdatabase hconvert, limitRows, Int32.toInt_toInt64,
    if_neg (not_lt.mpr hlimit)]

variable (codec deserialize)

/-- A call has no value, so none returns the number of messages. -/
theorem returned_eq_none (callback : Bool) (database : Database) (id : Int32) (peerId : UInt64)
    (offsetDate limit : Int32) {run : PageRun}
    (hrun : tgGetMessagesFromDatabase codec deserialize callback database id peerId offsetDate
      limit = some run) : run.returned = none := by
  unfold tgGetMessagesFromDatabase at hrun
  obtain ⟨calls, -, heq⟩ := Option.bind_eq_some_iff.mp hrun
  cases heq
  rfl

/-- No call does what is promised. -/
theorem not_reportsPage (database : Database) (id : Int32) (peerId : UInt64)
    (offsetDate limit : Int32) (callback : ℕ → TgMessageT → Int32) :
    ¬ ReportsPage codec deserialize database id peerId offsetDate limit callback := by
  rintro ⟨calls, page, hrun, -, -⟩
  cases returned_eq_none codec deserialize true database id peerId offsetDate limit hrun

end Promise

/-! ## Two messages, the older one stored first -/

def numberedMessage (id : UInt32) : TlMessage where
  buf := []
  out := false
  mentioned := false
  mediaUnread := false
  silent := false
  post := false
  fromScheduled := false
  legacy := false
  editHide := false
  pinned := false
  noforwards := false
  invertMedia := false
  offline := false
  id := id
  fromId := none
  fromBoostsApplied := 0
  peerId := none
  savedPeerId := none
  replyTo := none
  date := id
  message := []
  media := none
  entities := []
  ttlPeriod := 0

def byteMessage (data : List UInt8) : Option TlAnyMessage :=
  data.head?.map fun byte ↦ .message (numberedMessage byte.toUInt32)

/-- The rows of the messages 1 and 2 of the account 1 and the peer 7. The numbers are the dates. -/
def twoRows : List Row :=
  [messageLayout.row (1, ⟨1, 7, 1, [1]⟩), messageLayout.row (1, ⟨2, 7, 2, [2]⟩)]

/-- A database with these rows. -/
def twoMessages : Database :=
  Function.update Database.empty "messages".toList (some ⟨messageColumns, twoRows⟩)

/-- The first of these rows is not the newest. -/
theorem not_isNewest_first : ¬ IsNewest 1 twoRows (twoRows.take 1) := by
  rintro ⟨-, -, others, hperm, hnewer⟩
  have hothers : others = [messageLayout.row (1, ⟨2, 7, 2, [2]⟩)] :=
    List.perm_singleton.mp (hperm.cons_inv : others.Perm _)
  rw [hothers] at hnewer
  have hless := hnewer _ List.mem_cons_self _ List.mem_cons_self
  exact absurd hless (by unfold NotNewer; decide +kernel)

/-- With a limit of one the callback gets the message of the first row, which is not the newest, and no
number is returned. -/
theorem not_reportsPage_twoMessages :
    tgGetMessagesFromDatabase plainCodec byteMessage true twoMessages 1 7 10 1 =
        some ⟨(tgMessageFromTl plainCodec (numberedMessage 1)).toList, none⟩ ∧
      (twoRows.take 1).filterMap (rowMessage plainCodec byteMessage) =
        (tgMessageFromTl plainCodec (numberedMessage 1)).toList ∧
      ¬ IsNewest 1 twoRows (twoRows.take 1) ∧
      ¬ ReportsPage plainCodec byteMessage twoMessages 1 7 10 1 (fun _ _ ↦ 0) := by
  have hrun : tgGetMessagesFromDatabase plainCodec byteMessage true twoMessages 1 7 10 1 =
      some ⟨(tgMessageFromTl plainCodec (numberedMessage 1)).toList, none⟩ := by
    have hdatabase : twoMessages "messages".toList = some ⟨messageColumns, twoRows⟩ :=
      Function.update_self ..
    have hconvert (row : Row) (_ : row ∈ twoRows) (tl : TlAnyMessage)
        (htl : byteMessage (columnBlob (row "message_data".toList)) = some tl) :
        tl.convert plainCodec ≠ none := by
      obtain ⟨byte, -, rfl⟩ := Option.map_eq_some_iff.mp htl
      exact Option.some_ne_none _
    rw [tgGetMessagesFromDatabase_eq hdatabase hconvert]
    rfl
  refine ⟨hrun, rfl, not_isNewest_first, ?_⟩
  rintro ⟨calls, page, hcalls, -, -⟩
  rw [hrun] at hcalls
  cases hcalls

end LibTg.Tg
