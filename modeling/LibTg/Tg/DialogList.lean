import LibTg.Tg.Dialog
import LibTg.Tg.Updates

/-!
# The list of dialogs (`tg/dialogs.c`)

`tg_dialogs_from_tl` reports the dialogs of an answer, with the name, photo and top message that the
lists beside them have for each. `tg_get_dialogs` asks for one answer after the other. A list is a
vector with its length; a pointer in it may be null. Following a null pointer ends the run.
-/

namespace LibTg.Tg

open LibTg.Tl

/-! ## Decoded structs -/

/-- `id_peerUser`, which is also `TG_PEER_TYPE_USER`. -/
def idPeerUser : UInt32 := 0x59511722

/-- `id_peerChat`, which is also `TG_PEER_TYPE_CHAT`. -/
def idPeerChat : UInt32 := 0x36c6019a

/-- `id_peerChannel`, which is also `TG_PEER_TYPE_CHANNEL`. -/
def idPeerChannel : UInt32 := 0xa2a5371e

/-- `tl_userProfilePhoto_t` and `tl_chatPhoto_t`. -/
structure TlProfilePhoto where
  photoId : UInt64
  strippedThumb : Bytes
  deriving DecidableEq, Repr

/-- `tl_user_t`. -/
structure TlUser where
  id : UInt64
  accessHash : UInt64
  firstName : Bytes
  username : Bytes
  photo : Option TlProfilePhoto
  deriving DecidableEq, Repr

/-- `tl_channel_t`. -/
structure TlChannel where
  broadcast : Bool
  id : UInt64
  accessHash : UInt64
  title : Bytes
  photo : Option TlProfilePhoto
  deriving DecidableEq, Repr

/-- `tl_chat_t`. -/
structure TlChat where
  id : UInt64
  title : Bytes
  photo : Option TlProfilePhoto
  deriving DecidableEq, Repr

/-- The objects of type `User` that are told apart. -/
inductive TlAnyUser
  | user (user : TlUser)
  | other (id : UInt32)
  deriving DecidableEq, Repr

/-- The objects of type `Chat` that are told apart. -/
inductive TlAnyChat
  | channel (channel : TlChannel)
  | chat (chat : TlChat)
  | other (id : UInt32)
  deriving DecidableEq, Repr

/-- `tl_peerNotifySettings_t`. -/
structure TlNotifySettings where
  silent : Bool
  muteUntil : UInt32
  deriving DecidableEq, Repr

/-- `tl_dialog_t`. -/
structure TlDialog where
  pinned : Bool
  unreadMark : Bool
  peer : Option TlPeer
  topMessage : UInt32
  readInboxMaxId : UInt32
  readOutboxMaxId : UInt32
  unreadCount : UInt32
  unreadMentionsCount : UInt32
  unreadReactionsCount : UInt32
  notifySettings : Option TlNotifySettings
  folderId : UInt32
  deriving DecidableEq, Repr

/-- `tl_dialogFolder_t`, with the number of its folder. -/
structure TlDialogFolder where
  pinned : Bool
  folder : Option UInt32
  peer : Option TlPeer
  topMessage : UInt32
  unreadUnmutedMessagesCount : UInt32
  deriving DecidableEq, Repr

/-- The objects of type `Dialog` that are told apart. -/
inductive TlAnyDialog
  | dialog (dialog : TlDialog)
  | dialogFolder (folder : TlDialogFolder)
  | other (id : UInt32)
  deriving DecidableEq, Repr

/-- `tl_messages_dialogs_t`. -/
structure TlDialogs where
  dialogs : List (Option TlAnyDialog)
  messages : List (Option TlAnyMessage)
  chats : List (Option TlAnyChat)
  users : List (Option TlAnyUser)
  deriving DecidableEq, Repr

/-- The answers to `messages.getDialogs`, with the text of an `rpc_error`. -/
inductive TlDialogsAnswer
  | dialogsNotModified
  | dialogsSlice (count : UInt32) (md : TlDialogs)
  | dialogs (md : TlDialogs)
  | rpcError (error : List Char)
  | other (id : UInt32)
  deriving DecidableEq, Repr

/-! ## One dialog -/

/-- What an entry of `dialogs_` is treated as: a `tl_dialog_t`, nothing at all, or a folder without
an object, whose number is read all the same. -/
inductive DialogSource
  | dialog (dialog : TlDialog)
  | skipped
  | fault
  deriving DecidableEq, Repr

/-- The zeroed `tl_dialog_t` that a `dialogFolder` is copied to. -/
def dialogOfFolder (df : TlDialogFolder) (folder : UInt32) : TlDialog where
  pinned := df.pinned
  unreadMark := false
  peer := df.peer
  topMessage := df.topMessage
  readInboxMaxId := 0
  readOutboxMaxId := 0
  unreadCount := df.unreadUnmutedMessagesCount
  unreadMentionsCount := 0
  unreadReactionsCount := 0
  notifySettings := none
  folderId := folder

/-- The choice of `dialog` in a round of `tg_dialogs_from_tl`. -/
def dialogSource : Option TlAnyDialog → DialogSource
  | none => .skipped
  | some (.dialog dialog) => .dialog dialog
  | some (.dialogFolder df) =>
    match df.folder with
    | none => .fault
    | some folder => .dialog (dialogOfFolder df folder)
  | some (.other _) => .skipped

/-- The fields that are copied from the dialog. -/
def dialogFields (dialog : TlDialog) : TgDialog :=
  { TgDialog.zero with
    topMessageId := dialog.topMessage
    pinned := dialog.pinned
    unreadMark := dialog.unreadMark
    readInboxMaxId := dialog.readInboxMaxId
    readOutboxMaxId := dialog.readOutboxMaxId
    unreadCount := dialog.unreadCount
    unreadMentionsCount := dialog.unreadMentionsCount
    unreadReactionsCount := dialog.unreadReactionsCount
    folderId := dialog.folderId
    peerId := peerValue dialog.peer
    silent := (dialog.notifySettings.map TlNotifySettings.silent).getD false
    muteUntil := (dialog.notifySettings.map TlNotifySettings.muteUntil).getD 0 }

section Codec

variable (codec : Codec)

/-- The photo of a user or chat, if there is one. -/
def photoToDialog (photo : Option TlProfilePhoto) (d : TgDialog) : TgDialog :=
  match photo with
  | none => d
  | some photo => { d with photoId := photo.photoId, thumb := codec.toImage photo.strippedThumb }

/-- A user whose number is that of the dialog. -/
def userToDialog (user : TlUser) (d : TgDialog) : TgDialog :=
  photoToDialog codec user.photo
    { d with
      accessHash := user.accessHash
      peerType := idPeerUser
      name := if user.username ≠ [] then bufStrdup user.username else bufStrdup user.firstName }

/-- A channel whose number is that of the dialog. -/
def channelToDialog (channel : TlChannel) (d : TgDialog) : TgDialog :=
  photoToDialog codec channel.photo
    { d with
      accessHash := channel.accessHash
      peerType := idPeerChannel
      name := bufStrdup channel.title
      broadcast := channel.broadcast }

/-- A chat whose number is that of the dialog. -/
def chatToDialog (chat : TlChat) (d : TgDialog) : TgDialog :=
  photoToDialog codec chat.photo { d with peerType := idPeerChat, name := bufStrdup chat.title }

/-- A round of the loop over the users. -/
def userRound (d : TgDialog) : Option TlAnyUser → TgDialog
  | some (.user user) => if d.peerId = user.id then userToDialog codec user d else d
  | _ => d

/-- A round of the loop over the chats. -/
def chatRound (d : TgDialog) : Option TlAnyChat → TgDialog
  | some (.channel channel) => if d.peerId = channel.id then channelToDialog codec channel d else d
  | some (.chat chat) => if d.peerId = chat.id then chatToDialog codec chat d else d
  | _ => d

/-- The dialog after the loops over the users and chats. -/
def joinEntities (md : TlDialogs) (dialog : TlDialog) : TgDialog :=
  md.chats.foldl (chatRound codec) (md.users.foldl (userRound codec) (dialogFields dialog))

/-- The text of the top message. For a medium without a text of its own the text stays as it was. -/
def topMessageText (message : TlMessage) (tgm : TgMessageT) (text : Text) : Text :=
  if message.message ≠ [] then bufStrdup message.message
  else if tgm.docIsVideo then some "*video*".toList
  else if tgm.docIsRound then some "*round*".toList
  else if tgm.docIsVoice then some "*voice message*".toList
  else if tgm.docTitle.isSome then tgm.docTitle
  else if tgm.docId ≠ 0 then some "*document*".toList
  else if tgm.mediaType = 0x4cf4d72d then some "*document*".toList
  else if tgm.mediaType = 0x70322949 then some "*contact*".toList
  else if tgm.mediaType = 0x695150d7 then some "*photo*".toList
  else if tgm.mediaType = 0x56e0d474 then some "*geopoint*".toList
  else text

/-- The sender of the top message, from its type and number so far. -/
def topMessageFrom (fromId : Option TlPeer) (sender : UInt32 × UInt64) : UInt32 × UInt64 :=
  match fromId with
  | none => sender
  | some peer =>
    if peer.id = idPeerUser ∨ peer.id = idPeerChannel ∨ peer.id = idPeerChat then
      (peer.id, peer.value)
    else (0, sender.2)

/-- A message whose number is that of the top message. -/
def topMessage (message : TlMessage) (tgm : TgMessageT) (d : TgDialog) : TgDialog :=
  let sender := topMessageFrom message.fromId (d.topMessageFromPeerType, d.topMessageFromPeerId)
  { d with
    topMessageDate := message.date
    topMessageText := topMessageText message tgm d.topMessageText
    topMessageFromPeerType := sender.1
    topMessageFromPeerId := sender.2 }

/-- The loop over the messages: those that are stored, and the dialog, unless a null pointer has been
followed. -/
def messageLoop : List (Option TlAnyMessage) → TgDialog → List TgMessageT × Option TgDialog
  | [], d => ([], some d)
  | some (.message message) :: messages, d =>
    if message.id = d.topMessageId then
      match tgMessageFromTl codec message with
      | none => ([], none)
      | some tgm =>
        let (stored, last) := messageLoop messages (topMessage message tgm d)
        (tgm :: stored, last)
    else messageLoop messages d
  | _ :: messages, d => messageLoop messages d

/-! ## The dialogs of an answer -/

/-- What is done with a dialog: `tg_message_to_database`, `tg_dialog_to_database` and a call of the
callback, where `dialog` says which dialog of the answer it is about. `sleep` waits. -/
inductive DialogEvent
  | messageToDatabase (tgm : TgMessageT)
  | dialogToDatabase (d : TgDialog)
  | callback (dialog : TlDialog) (d : TgDialog)
  | sleep (seconds : ℤ)
  deriving DecidableEq, Repr

/-- How a round of the loop over the dialogs ends. -/
inductive DialogRound
  | skipped
  | fault (stored : List TgMessageT)
  | reported (stored : List TgMessageT) (d : TgDialog)
  deriving DecidableEq, Repr

variable (onLog : Bool)

/-- A round of the loop over the dialogs. Only the log line follows the peer of a dialog that nothing
has been found for, and it is made only if `on_log` is set. -/
def dialogRound (md : TlDialogs) (dialog : TlDialog) : DialogRound :=
  let d := joinEntities codec md dialog
  if d.peerType = 0 then if onLog ∧ dialog.peer = none then .fault [] else .skipped
  else
    match messageLoop codec md.messages d with
    | (stored, none) => .fault stored
    | (stored, some d) => .reported stored d

def updateHash (hash : UInt64) (msgId : UInt32) : UInt64 :=
  let h := hash ^^^ (hash >>> 21)
  let h := h ^^^ (h <<< 35)
  let h := h ^^^ (h >>> 4)
  h + msgId.toUInt64

abbrev DialogCallback := ℕ → TgDialog → Int32

variable (callback : Option DialogCallback)

/-- The call of the callback, if there is one, and whether it stops the loop. -/
def callDialog (count : ℕ) (dialog : TlDialog) (d : TgDialog) : List DialogEvent × Bool :=
  match callback with
  | none => ([], false)
  | some callback => ([.callback dialog d], callback count d ≠ 0)

/-- The loop over the dialogs, with the counter `n`: what is done, and the hash and the returned
number, unless a null pointer has been followed. -/
def dialogLoop (md : TlDialogs) :
    List (Option TlAnyDialog) → Option UInt64 → ℕ → List DialogEvent × Option (Option UInt64 × ℤ)
  | [], hash, n => ([], some (hash, n))
  | entry :: entries, hash, n =>
    match dialogSource entry with
    | .skipped => dialogLoop md entries hash n
    | .fault => ([], none)
    | .dialog dialog =>
      match dialogRound codec onLog md dialog with
      | .skipped => dialogLoop md entries hash n
      | .fault stored => (stored.map .messageToDatabase, none)
      | .reported stored d =>
        let hash := hash.map (updateHash · d.topMessageId)
        let (called, stop) := callDialog callback n dialog d
        let done := stored.map .messageToDatabase ++ .dialogToDatabase d :: called
        if stop then (done, some (hash, -1))
        else
          let (later, last) := dialogLoop md entries hash (n + 1)
          (done ++ later, last)

/-! ## The answers to a query -/

/-- `struct tg_get_dialogs_t`, apart from what does not change. -/
structure TgGetDialogs where
  count : Int32
  total : Int32
  hash : Option UInt64
  offsetId : UInt32
  offsetDate : UInt32
  stop : Bool
  deriving DecidableEq, Repr

/-- `tg_dialogs_from_tl` for the lists of an answer. -/
def dialogsFromLists (t : TgGetDialogs) (md : TlDialogs) :
    List DialogEvent × Option (TgGetDialogs × ℤ) :=
  let t := { t with count := t.count + Int32.ofNat md.dialogs.length }
  let (events, last) := dialogLoop codec onLog callback md md.dialogs t.hash 0
  (events, last.map fun (hash, n) ↦ ({ t with hash := hash }, n))

def tgDialogsFromTl (t : TgGetDialogs) (tl : Option TlDialogsAnswer) :
    List DialogEvent × Option (TgGetDialogs × ℤ) :=
  match tl with
  | none => ([], some (t, 0))
  | some .dialogsNotModified => ([], some (t, 0))
  | some (.dialogsSlice count md) =>
    dialogsFromLists codec onLog callback { t with total := count.toInt32 } md
  | some (.dialogs md) => dialogsFromLists codec onLog callback t md
  | some (.rpcError _) => ([], some (t, 0))
  | some (.other _) => ([], some (t, 0))

/-- The wait that an `rpc_error` asks for. -/
def floodWait : TlDialogsAnswer → List DialogEvent
  | .rpcError error =>
    let wait := tgErrorGetNum error "FLOOD_WAIT_"
    if wait ≠ 0 then [.sleep wait] else []
  | _ => []

/-- `tg_get_dialogs_callback`. The assertion fails without an object. -/
def tgGetDialogsCallback (t : TgGetDialogs) (tl : Option TlDialogsAnswer) :
    List DialogEvent × Option TgGetDialogs :=
  match tl with
  | none => ([], none)
  | some answer =>
    let (events, last) := tgDialogsFromTl codec onLog callback t (some answer)
    (floodWait answer ++ events,
      last.map fun (t, n) ↦ if n < 0 then { t with stop := true } else t)

/-! ## The queries -/

/-- The query `messages.getDialogs`. -/
structure GetDialogs where
  folderId : Option UInt32
  offsetDate : UInt32
  offsetId : UInt32
  limit : UInt32
  hash : UInt64
  deriving DecidableEq, Repr

/-- The arguments of `tg_get_dialogs` that the queries are made from. -/
structure DialogArgs where
  limit : Int32
  offsetDate : UInt32
  hash : Option UInt64
  folderId : Option UInt32
  deriving DecidableEq, Repr

/-- The state before the first query. -/
def DialogArgs.start (args : DialogArgs) : TgGetDialogs where
  count := 0
  total := 1
  hash := args.hash
  offsetId := 0xffffffff
  offsetDate := args.offsetDate
  stop := false

def DialogArgs.query (args : DialogArgs) (t : TgGetDialogs) : GetDialogs where
  folderId := args.folderId
  offsetDate := t.offsetDate
  offsetId := t.offsetId
  limit := if 0 < args.limit then args.limit.toUInt32 else 20
  hash := t.hash.getD 0

/-- How a run of `tg_get_dialogs` ends: it returns, it fails, or the rounds that were allowed are used
up. -/
inductive DialogsEnd
  | returned (t : TgGetDialogs)
  | fault
  | running
  deriving DecidableEq, Repr

variable (args : DialogArgs) (answers : ℕ → GetDialogs → Option TlDialogsAnswer)

/-- The loop of `tg_get_dialogs` for at most so many rounds, from a round on. The thread of the query
has ended before the next round. -/
def getDialogsFrom : ℕ → ℕ → TgGetDialogs → List DialogEvent × DialogsEnd
  | 0, _, _ => ([], .running)
  | fuel + 1, round, t =>
    if t.count < t.total then
      match tgGetDialogsCallback codec onLog callback t (answers round (args.query t)) with
      | (events, none) => (events, .fault)
      | (events, some t) =>
        if 0 < args.limit ∨ t.stop then (events, .returned t)
        else
          let (later, last) := getDialogsFrom fuel (round + 1) t
          (events ++ later, last)
    else ([], .returned t)

def tgGetDialogs (fuel : ℕ) : List DialogEvent × DialogsEnd :=
  getDialogsFrom codec onLog callback args answers fuel 0 args.start

end Codec

end LibTg.Tg
