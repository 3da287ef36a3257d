import LibTg.Tg.Message

/-!
# New messages (`tg/updates.c`, `tg/messages.c`)

A message is stored and reported from a local `tg_message_t`. `tg_message_from_tl_unknown` assigns it
for the constructors `message` and `messageService` and does nothing for other objects, so a local
variable is an `Option`, and `none` stands for one that has not been assigned.
-/

namespace LibTg.Tg

open LibTg.Tl

/-- An object of type `Message`: one of the two constructors that are converted, or another one. -/
inductive TlAnyMessage
  | message (tlm : TlMessage)
  | messageService (tlm : TlMessageService)
  | other (id : UInt32)
  deriving DecidableEq, Repr

/-- What is done with a local `tg_message_t`: `tg_message_to_database`, a call of the callback, and
`ON_UPDATE` with the message alone or with the chat it was sent to. -/
inductive Report
  | toDatabase (tgm : Option TgMessageT)
  | callback (tgm : Option TgMessageT)
  | onUpdate (tgm : Option TgMessageT)
  | onChatUpdate (chatId : UInt64) (tgm : Option TgMessageT)
  deriving DecidableEq, Repr

section Unknown

variable (codec : Codec)

/-- What one of the two constructors is converted to. -/
def TlAnyMessage.convert : TlAnyMessage → Option TgMessageT
  | .message tlm => tgMessageFromTl codec tlm
  | .messageService tlm => tgMessageFromTlService codec tlm
  | .other _ => none

/-- `tg_message_from_tl_unknown`, with the variable before it. -/
def tgMessageFromTlUnknown (tgm : Option TgMessageT) (tlm : Option TlAnyMessage) :
    Option (Option TgMessageT) :=
  match tlm with
  | none => some tgm
  | some (.message tlm) => (tgMessageFromTl codec tlm).map some
  | some (.messageService tlm) => (tgMessageFromTlService codec tlm).map some
  | some (.other _) => some tgm

/-! ## Answers with messages -/

abbrev MessageCallback := ℕ → Option TgMessageT → Int32

/-- The call of a callback that may be missing, and whether it stops the loop. -/
def callCallback (callback : Option MessageCallback) (count : ℕ) (tgm : Option TgMessageT) :
    List Report × Bool :=
  match callback with
  | none => ([], false)
  | some callback => ([.callback tgm], callback count tgm ≠ 0)

variable (callback : Option MessageCallback)

/-- The loop of `parse_msgs`, with the index of the round and the number of calls so far. The
variable of a round is a new one. -/
def parseMsgsFrom : ℕ → ℕ → List (Option TlAnyMessage) → Option (List Report × ℕ)
  | index, _, [] => some ([], index)
  | index, count, none :: argv => parseMsgsFrom (index + 1) count argv
  | index, count, some tlm :: argv => do
    let tgm ← tgMessageFromTlUnknown codec none (some tlm)
    let (called, stop) := callCallback callback count tgm
    if stop then some (.toDatabase tgm :: called, index)
    else do
      let (reports, last) ← parseMsgsFrom (index + 1) (count + 1) argv
      some (.toDatabase tgm :: called ++ reports, last)

def parseMsgs (argv : List (Option TlAnyMessage)) : Option (List Report × ℕ) :=
  parseMsgsFrom codec callback 0 0 argv

/-- The answers to a query for messages that are told apart. -/
inductive TlMessages
  | channelMessages (messages : List (Option TlAnyMessage))
  | messages (messages : List (Option TlAnyMessage))
  | messagesSlice (messages : List (Option TlAnyMessage))
  | other (id : UInt32)
  deriving DecidableEq, Repr

/-- The entries of an answer. -/
def TlMessages.entries : TlMessages → List (Option TlAnyMessage)
  | .channelMessages entries => entries
  | .messages entries => entries
  | .messagesSlice entries => entries
  | .other _ => []

/-- `parse_tl`, apart from the users and chats that it saves. -/
def parseTl (tl : Option TlMessages) : Option (List Report × ℕ) :=
  match tl with
  | none => some ([], 0)
  | some (.channelMessages messages) => parseMsgs codec callback messages
  | some (.messages messages) => parseMsgs codec callback messages
  | some (.messagesSlice messages) => parseMsgs codec callback messages
  | some (.other _) => some ([], 0)

end Unknown

/-! ## Updates -/

/-- The objects of type `Update` that are told apart here. -/
inductive TlUpdate
  | newMessage (message : Option TlAnyMessage)
  | other (id : UInt32)
  deriving DecidableEq, Repr

/-- `tl_updateShortMessage_t`. -/
structure TlUpdateShortMessage where
  out : Bool
  mentioned : Bool
  mediaUnread : Bool
  silent : Bool
  id : UInt32
  message : Bytes
  date : UInt32
  ttlPeriod : UInt32
  deriving DecidableEq, Repr

/-- `tl_updateShortChatMessage_t`. -/
structure TlUpdateShortChatMessage where
  out : Bool
  mentioned : Bool
  mediaUnread : Bool
  silent : Bool
  id : UInt32
  fromId : UInt64
  chatId : UInt64
  message : Bytes
  date : UInt32
  ttlPeriod : UInt32
  deriving DecidableEq, Repr

/-- The constructor of `tl_updateShortChatMessage_t`, its field `_id`. -/
def TlUpdateShortChatMessage.constructor (_ : TlUpdateShortChatMessage) : UInt32 := 0x4d6deea5

/-- The objects of type `Updates`. -/
inductive TlUpdates
  | updatesTooLong
  | updateShortMessage (update : TlUpdateShortMessage)
  | updateShortChatMessage (update : TlUpdateShortChatMessage)
  | updateShort (update : Option TlUpdate)
  | updatesCombined (updates : List (Option TlUpdate))
  | updates (updates : List (Option TlUpdate))
  | updateShortSentMessage
  | other (id : UInt32)
  deriving DecidableEq, Repr

/-- `message_update` behind the assignments to `up`. -/
def messageOfShort (up : TlUpdateShortMessage) (fromId : UInt64) : TgMessageT :=
  { TgMessageT.zero with
    fromId := fromId
    out := up.out
    mentioned := up.mentioned
    mediaUnread := up.mediaUnread
    silent := up.silent
    id := up.id
    message := bufStrdup up.message
    date := up.date
    ttlPeriod := up.ttlPeriod }

/-- `message_update` for an `updateShortMessage`. -/
def messageUpdateShort (tl : TlUpdateShortMessage) : TgMessageT := messageOfShort tl 0

/-- `message_update` for an `updateShortChatMessage`. The field that is copied to `up.id_` is the
number of the constructor. -/
def messageUpdateChat (cm : TlUpdateShortChatMessage) : UInt64 × TgMessageT :=
  (cm.chatId, messageOfShort
    { out := cm.out
      mentioned := cm.mentioned
      mediaUnread := cm.mediaUnread
      silent := cm.silent
      id := cm.constructor
      message := cm.message
      date := cm.date
      ttlPeriod := cm.ttlPeriod } cm.fromId)

section Updates

variable (codec : Codec)

/-- `tg_do_update`, as far as it reports messages. -/
def tgDoUpdate (update : TlUpdate) : Option (List Report) :=
  match update with
  | .newMessage message => do
    let tgm ← tgMessageFromTlUnknown codec none message
    some [.toDatabase tgm, .onUpdate tgm]
  | .other _ => some []

/-- The loop over the updates of a list. -/
def doUpdateList : List (Option TlUpdate) → Option (List Report)
  | [] => some []
  | none :: updates => doUpdateList updates
  | some update :: updates => do
    let first ← tgDoUpdate codec update
    let rest ← doUpdateList updates
    some (first ++ rest)

/-- `tg_do_updates` for an object, with a result for its return value. For a null pointer `tg_do_update`
returns, but its log line, which is made if `on_log` is set, follows it before that. -/
def tgDoUpdates (onLog : Bool) (tl : TlUpdates) : Option (List Report × ℤ) :=
  match tl with
  | .updatesTooLong => some ([], 0)
  | .updateShortMessage update => some ([.onUpdate (some (messageUpdateShort update))], 0)
  | .updateShortChatMessage update =>
    let (chatId, tgm) := messageUpdateChat update
    some ([.onChatUpdate chatId (some tgm)], 0)
  | .updateShort none => if onLog then none else some ([], 0)
  | .updateShort (some update) => (tgDoUpdate codec update).map (·, 0)
  | .updatesCombined updates => (doUpdateList codec updates).map (·, 0)
  | .updates updates => (doUpdateList codec updates).map (·, 0)
  | .updateShortSentMessage => some ([], 0)
  | .other _ => some ([], 1)

end Updates

end LibTg.Tg
