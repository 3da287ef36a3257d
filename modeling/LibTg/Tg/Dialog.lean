import LibTg.Sql.Statement

/-!
# Dialogs (`tg/dialogs.h`)

`TG_DIALOG_ARGS` lists the fields of `tg_dialog_t` with their columns; the source expands it wherever
a dialog is declared, written or read. Here the list is a value, `tgDialogArgs`.
-/

namespace LibTg.Tg

open Sql

/-- `tg_dialog_t`. A text is a null pointer or the characters before its closing zero. -/
structure TgDialog where
  name : Option (List Char)
  pinned : Bool
  unreadMark : Bool
  topMessageId : UInt32
  topMessageFromPeerType : UInt32
  topMessageFromPeerId : UInt64
  topMessageDate : UInt32
  topMessageText : Option (List Char)
  readInboxMaxId : UInt32
  readOutboxMaxId : UInt32
  unreadCount : UInt32
  unreadMentionsCount : UInt32
  unreadReactionsCount : UInt32
  folderId : UInt32
  silent : Bool
  muteUntil : UInt32
  peerType : UInt32
  peerId : UInt64
  photoId : UInt64
  thumb : Option (List Char)
  accessHash : UInt64
  broadcast : Bool
  deriving DecidableEq, Repr

/-- `memset(&d, 0, sizeof(d))`. -/
def TgDialog.zero : TgDialog :=
  ⟨none, false, false, 0, 0, 0, 0, none, 0, 0, 0, 0, 0, 0, false, 0, 0, 0, 0, none, 0, false⟩

/-- An entry of `TG_DIALOG_ARGS`: a number that is written as a `uint64_t` and read as a 64-bit
integer, or a text. -/
inductive DialogArg
  | arg (column : String) (get : TgDialog → UInt64) (set : Int64 → TgDialog → TgDialog)
  | str (column : String) (get : TgDialog → Option (List Char))
      (set : Option (List Char) → TgDialog → TgDialog)

/-- An integer becomes a `uint32_t`. -/
def toUInt32 (value : Int64) : UInt32 := value.toUInt64.toUInt32

/-- An integer becomes a `bool`. -/
def toBool (value : Int64) : Bool := value ≠ 0

def tgDialogArgs : List DialogArg :=
  [.str "name" (·.name) fun v d ↦ { d with name := v },
    .arg "pinned" (·.pinned.toUInt64) fun v d ↦ { d with pinned := toBool v },
    .arg "unread_mark" (·.unreadMark.toUInt64) fun v d ↦ { d with unreadMark := toBool v },
    .arg "top_message_id" (·.topMessageId.toUInt64) fun v d ↦ { d with topMessageId := toUInt32 v },
    .arg "top_message_from_peer_type" (·.topMessageFromPeerType.toUInt64) fun v d ↦
      { d with topMessageFromPeerType := toUInt32 v },
    .arg "top_message_from_peer_id" (·.topMessageFromPeerId) fun v d ↦
      { d with topMessageFromPeerId := v.toUInt64 },
    .arg "top_message_date" (·.topMessageDate.toUInt64) fun v d ↦
      { d with topMessageDate := toUInt32 v },
    .str "top_message_text" (·.topMessageText) fun v d ↦ { d with topMessageText := v },
    .arg "read_inbox_max_id" (·.readInboxMaxId.toUInt64) fun v d ↦
      { d with readInboxMaxId := toUInt32 v },
    .arg "read_outbox_max_id" (·.readOutboxMaxId.toUInt64) fun v d ↦
      { d with readOutboxMaxId := toUInt32 v },
    .arg "unread_count" (·.unreadCount.toUInt64) fun v d ↦ { d with unreadCount := toUInt32 v },
    .arg "unread_mentions_count" (·.unreadMentionsCount.toUInt64) fun v d ↦
      { d with unreadMentionsCount := toUInt32 v },
    .arg "unread_reactions_count" (·.unreadReactionsCount.toUInt64) fun v d ↦
      { d with unreadReactionsCount := toUInt32 v },
    .arg "folder_id" (·.folderId.toUInt64) fun v d ↦ { d with folderId := toUInt32 v },
    .arg "silent" (·.silent.toUInt64) fun v d ↦ { d with silent := toBool v },
    .arg "mute_until" (·.muteUntil.toUInt64) fun v d ↦ { d with muteUntil := toUInt32 v },
    .arg "peer_type" (·.peerType.toUInt64) fun v d ↦ { d with peerType := toUInt32 v },
    .arg "peer_id" (·.peerId) fun v d ↦ { d with peerId := v.toUInt64 },
    .arg "photo_id" (·.photoId) fun v d ↦ { d with photoId := v.toUInt64 },
    .str "thumb" (·.thumb) fun v d ↦ { d with thumb := v },
    .arg "access_hash" (·.accessHash) fun v d ↦ { d with accessHash := v.toUInt64 },
    .arg "broadcat" (·.broadcast.toUInt64) fun v d ↦ { d with broadcast := toBool v }]

def DialogArg.column : DialogArg → Name
  | .arg column _ _ => column.toList
  | .str column _ _ => column.toList

/-- The declared type of the column. -/
def DialogArg.type : DialogArg → List Char
  | .arg _ _ _ => "INT".toList
  | .str _ _ _ => "TEXT".toList

/-- The pieces of `UPDATE` that set the field; a null text is left out. -/
def DialogArg.update (d : TgDialog) : DialogArg → List Piece
  | .arg column get _ => .char '\'' :: .text column.toList :: format "' = %ld, ".toList
      [.ld (get d).toInt64]
  | .str column get _ =>
    match get d with
    | none => []
    | some text => .char '\'' :: .text column.toList :: format "' = '".toList [] ++
        .text text :: format "', ".toList []

/-- The field is read from its column. `strndup` of no bytes is an empty text. -/
def DialogArg.read (value : Value) : DialogArg → TgDialog → TgDialog
  | .arg _ _ set => set (columnInt64 value)
  | .str _ _ set => set (some ((columnText value).getD []))

end LibTg.Tg
