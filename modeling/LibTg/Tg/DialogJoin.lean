import LibTg.Data.Last
import LibTg.Tg.DialogList

/-!
# Dialogs and what they are with

The peer of a dialog names a user, a chat or a channel, and each of the three kinds has numbers of
its own. `tg_dialogs_from_tl` compares the numbers alone, and goes on after an entry that fits. So a
dialog is filled from every entry with its number, and a field has the value of the last that sets
it. The same holds for the messages with the number of the top message.
-/

namespace LibTg.Tg

open LibTg.Tl

/-! ## Entities -/

/-- What a dialog can be with. -/
inductive Entity
  | user (user : TlUser)
  | channel (channel : TlChannel)
  | chat (chat : TlChat)
  deriving DecidableEq, Repr

/-- The peer that names an entity. -/
def Entity.peer : Entity → TlPeer
  | .user tl => ⟨idPeerUser, tl.id⟩
  | .channel tl => ⟨idPeerChannel, tl.id⟩
  | .chat tl => ⟨idPeerChat, tl.id⟩

/-- The name that is shown for an entity. -/
def Entity.name : Entity → Text
  | .user tl => if tl.username ≠ [] then bufStrdup tl.username else bufStrdup tl.firstName
  | .channel tl => bufStrdup tl.title
  | .chat tl => bufStrdup tl.title

/-- The access hash of an entity. A chat has none. -/
def Entity.accessHash : Entity → Option UInt64
  | .user tl => some tl.accessHash
  | .channel tl => some tl.accessHash
  | .chat _ => none

def Entity.photo : Entity → Option TlProfilePhoto
  | .user tl => tl.photo
  | .channel tl => tl.photo
  | .chat tl => tl.photo

/-- The entity of an entry of `users_`. -/
def userEntity : Option TlAnyUser → Option Entity
  | some (.user user) => some (.user user)
  | _ => none

/-- The entity of an entry of `chats_`. -/
def chatEntity : Option TlAnyChat → Option Entity
  | some (.channel channel) => some (.channel channel)
  | some (.chat chat) => some (.chat chat)
  | _ => none

/-- The entities of an answer, in the order in which they are visited. -/
def TlDialogs.entities (md : TlDialogs) : List Entity :=
  md.users.filterMap userEntity ++ md.chats.filterMap chatEntity

/-- The entities with the number of a dialog's peer. -/
def TlDialogs.numbered (md : TlDialogs) (dialog : TlDialog) : List Entity :=
  md.entities.filter fun entity ↦ peerValue dialog.peer = entity.peer.value

/-- The entity that a dialog's peer names. Where the answer has it more than once, the last entry
counts. -/
def TlDialogs.entityOf (md : TlDialogs) (dialog : TlDialog) : Option Entity :=
  (md.entities.filter fun entity ↦ dialog.peer = some entity.peer).getLast?

/-! ## Top messages -/

/-- The fields of a dialog that come from its top message. -/
structure TopFields where
  date : UInt32
  text : Text
  fromPeerType : UInt32
  fromPeerId : UInt64
  deriving DecidableEq, Repr

/-- The fields without a top message. -/
def TopFields.zero : TopFields := ⟨0, none, 0, 0⟩

/-- The fields of a reported dialog. -/
def TgDialog.top (d : TgDialog) : TopFields :=
  ⟨d.topMessageDate, d.topMessageText, d.topMessageFromPeerType, d.topMessageFromPeerId⟩

/-- The entries of `messages_` that are looked at. -/
def plainMessage : Option TlAnyMessage → Option TlMessage
  | some (.message message) => some message
  | _ => none

def withId (messages : List (Option TlAnyMessage)) (id : UInt32) : List TlMessage :=
  (messages.filterMap plainMessage).filter fun message ↦ message.id = id

/-- The messages with the number of a dialog's top message. -/
def TlDialogs.sameId (md : TlDialogs) (dialog : TlDialog) : List TlMessage :=
  withId md.messages dialog.topMessage

section Codec

variable (codec : Codec)

/-- The text that is shown for a message. -/
def messageText (message : TlMessage) : Text :=
  topMessageText message ((tgMessageFromTl codec message).getD TgMessageT.zero) none

/-- The fields for a date, a text and a sender. -/
def topFields (date : UInt32) (text : Text) (fromId : Option TlPeer) : TopFields :=
  let sender := topMessageFrom fromId (0, 0)
  ⟨date, text, sender.1, sender.2⟩

/-- The fields of an entry of `messages_`, if it has the number of a dialog's top message and is a
message of its chat. A service message has no text. -/
def ownTop (dialog : TlDialog) : Option TlAnyMessage → Option TopFields
  | some (.message message) =>
    if message.id = dialog.topMessage ∧ message.peerId = dialog.peer then
      some (topFields message.date (messageText codec message) message.fromId)
    else none
  | some (.messageService message) =>
    if message.id = dialog.topMessage ∧ message.peerId = dialog.peer then
      some (topFields message.date none message.fromId)
    else none
  | _ => none

def TlDialogs.topOf (md : TlDialogs) (dialog : TlDialog) : TopFields :=
  (lastSet (ownTop codec dialog) md.messages).getD TopFields.zero

/-! ## The claim about a reported dialog -/

/-- A dialog is reported with the fields of its entity and of its top message. -/
structure JoinedRight (md : TlDialogs) (dialog : TlDialog) (d : TgDialog) : Prop where
  entity : ∃ entity, md.entityOf dialog = some entity ∧ d.peerType = entity.peer.id ∧
    d.accessHash = entity.accessHash.getD 0 ∧ d.name = entity.name ∧
    d.photoId = (entity.photo.map TlProfilePhoto.photoId).getD 0 ∧
    d.thumb = entity.photo.bind fun photo ↦ codec.toImage photo.strippedThumb
  top : d.top = md.topOf codec dialog

/-- The dialogs that are handed to the callback, with the dialogs of the answer they are about. -/
def reported (events : List DialogEvent) : List (TlDialog × TgDialog) :=
  events.filterMap fun
    | .callback dialog d => some (dialog, d)
    | _ => none

/-- The two answers with lists. -/
def TlDialogsAnswer.lists : TlDialogsAnswer → Option TlDialogs
  | .dialogsSlice _ md => some md
  | .dialogs md => some md
  | _ => none

/-- Whatever is reported of an answer is joined right. -/
def JoinsRight (onLog : Bool) (tl : TlDialogsAnswer) : Prop :=
  ∀ (callback : Option DialogCallback) (t : TgGetDialogs) (md : TlDialogs), tl.lists = some md →
    ∀ report ∈ reported (tgDialogsFromTl codec onLog callback t (some tl)).1,
      JoinedRight codec md report.1 report.2

/-! ## Where numbers coincide -/

/-- The type that is set for a sender. -/
def senderType (peer : TlPeer) : UInt32 :=
  if peer.id = idPeerUser ∨ peer.id = idPeerChannel ∨ peer.id = idPeerChat then peer.id else 0

/-- The number that is set for a sender. -/
def senderId (peer : TlPeer) : Option UInt64 :=
  if peer.id = idPeerUser ∨ peer.id = idPeerChannel ∨ peer.id = idPeerChat then some peer.value
  else none

/-- What a list of messages leaves: the date of the last, the text of the last that has one, and the
sender of the last that has one. -/
def lastTop (messages : List TlMessage) : TopFields where
  date := (lastSet (fun message ↦ some message.date) messages).getD 0
  text := lastSet (messageText codec) messages
  fromPeerType := (lastSet (fun message ↦ message.fromId.map senderType) messages).getD 0
  fromPeerId := (lastSet (fun message ↦ message.fromId.bind senderId) messages).getD 0

/-- The number and the thumbnail that a photo leaves. -/
def photoFields (photo : Option TlProfilePhoto) : UInt64 × Text :=
  ((photo.map TlProfilePhoto.photoId).getD 0,
    photo.bind fun photo ↦ codec.toImage photo.strippedThumb)

/-- Entries that share a number with the dialog or its top message leave nothing in it. The last
entity with the number is the one that the peer names, no other one leaves a photo or an access hash
where it has none, and the messages with the number leave what the dialog's own has. -/
structure Unmixed (md : TlDialogs) (dialog : TlDialog) : Prop where
  kind : (md.numbered dialog).getLast?.map Entity.peer = dialog.peer
  photo : photoFields codec (lastSet Entity.photo (md.numbered dialog)) =
    photoFields codec ((md.entityOf dialog).bind Entity.photo)
  accessHash : (lastSet Entity.accessHash (md.numbered dialog)).getD 0 =
    ((md.entityOf dialog).bind Entity.accessHash).getD 0
  messages : lastTop codec (md.sameId dialog) = md.topOf codec dialog

variable (onLog : Bool)

/-- A round ends at a null pointer: in the log line for a dialog that nothing has the number of and
that has no peer, or in a message that is converted. -/
def Faults (md : TlDialogs) (dialog : TlDialog) : Prop :=
  if md.numbered dialog = [] then onLog ∧ dialog.peer = none
  else ∃ message ∈ md.sameId dialog, tgMessageFromTl codec message = none

instance (md : TlDialogs) (dialog : TlDialog) : Decidable (Faults codec onLog md dialog) := by
  unfold Faults
  infer_instance

/-- The dialogs of a list of entries up to the first at which a null pointer is followed. -/
def reachedIn (md : TlDialogs) : List (Option TlAnyDialog) → List TlDialog
  | [] => []
  | entry :: entries =>
    match dialogSource entry with
    | .skipped => reachedIn md entries
    | .fault => []
    | .dialog dialog => if Faults codec onLog md dialog then [] else dialog :: reachedIn md entries

/-- The dialogs of an answer that are reached. -/
def TlDialogs.reached (md : TlDialogs) : List TlDialog := reachedIn codec onLog md md.dialogs

/-! ## What the loops leave -/

/-- Whether an entity is a broadcast. Only a channel says so. -/
def Entity.broadcast : Entity → Option Bool
  | .channel tl => some tl.broadcast
  | _ => none

def Entity.toDialog : Entity → TgDialog → TgDialog
  | .user tl => userToDialog codec tl
  | .channel tl => channelToDialog codec tl
  | .chat tl => chatToDialog codec tl

variable {codec onLog}

/-- The three kinds set the same fields; a chat leaves the access hash, and an entity without a photo
leaves the photo. -/
theorem toDialog_eq (entity : Entity) (d : TgDialog) :
    entity.toDialog codec d =
      { d with
        peerType := entity.peer.id
        name := entity.name
        accessHash := entity.accessHash.getD d.accessHash
        broadcast := entity.broadcast.getD d.broadcast
        photoId := (entity.photo.map TlProfilePhoto.photoId).getD d.photoId
        thumb :=
          (entity.photo.map fun photo ↦ codec.toImage photo.strippedThumb).getD d.thumb } := by
  have hphoto (photo : Option TlProfilePhoto) (d : TgDialog) :
      photoToDialog codec photo d =
        { d with
          photoId := (photo.map TlProfilePhoto.photoId).getD d.photoId
          thumb := (photo.map fun photo ↦ codec.toImage photo.strippedThumb).getD d.thumb } := by
    cases photo <;> rfl
  cases entity with
  | user tl => exact hphoto tl.photo _
  | channel tl => exact hphoto tl.photo _
  | chat tl => exact hphoto tl.photo _

@[simp]
theorem toDialog_peerId (entity : Entity) (d : TgDialog) :
    (entity.toDialog codec d).peerId = d.peerId := by
  rw [toDialog_eq]

/-- A round of the loop over the users, for the entity of its entry. -/
theorem userRound_eq (d : TgDialog) (entry : Option TlAnyUser) :
    userRound codec d entry =
      match userEntity entry with
      | none => d
      | some entity => if d.peerId = entity.peer.value then entity.toDialog codec d else d := by
  rcases entry with _ | _ | _ <;> rfl

/-- A round of the loop over the chats, for the entity of its entry. -/
theorem chatRound_eq (d : TgDialog) (entry : Option TlAnyChat) :
    chatRound codec d entry =
      match chatEntity entry with
      | none => d
      | some entity => if d.peerId = entity.peer.value then entity.toDialog codec d else d := by
  rcases entry with _ | _ | _ | _ <;> rfl

/-- A loop whose rounds look at the entities of its entries fills the dialog from those with its
number. -/
theorem foldl_entities {Entry : Type} {entityOf : Entry → Option Entity}
    {round : TgDialog → Entry → TgDialog}
    (hround : ∀ d entry, round d entry =
      match entityOf entry with
      | none => d
      | some entity => if d.peerId = entity.peer.value then entity.toDialog codec d else d)
    (entries : List Entry) (d : TgDialog) :
    entries.foldl round d =
      ((entries.filterMap entityOf).filter fun entity ↦ d.peerId = entity.peer.value).foldl
        (fun d entity ↦ entity.toDialog codec d) d := by
  induction entries generalizing d with
  | nil => rfl
  | cons entry entries ih =>
    rw [List.foldl_cons, ih, hround]
    cases hentity : entityOf entry with
    | none => rw [List.filterMap_cons_none hentity]
    | some entity =>
      rw [List.filterMap_cons_some hentity]
      by_cases hnumber : d.peerId = entity.peer.value
      · simp [hnumber]
      · simp [hnumber]

/-- The two loops fill the dialog from the entities with its number. -/
theorem joinEntities_eq (md : TlDialogs) (dialog : TlDialog) :
    joinEntities codec md dialog =
      (md.numbered dialog).foldl (fun d entity ↦ entity.toDialog codec d) (dialogFields dialog) := by
  unfold joinEntities TlDialogs.numbered TlDialogs.entities
  rw [foldl_entities chatRound_eq, foldl_entities userRound_eq,
    foldl_keep (fun d entity ↦ toDialog_peerId entity d), List.filter_append, List.foldl_append]
  rfl

variable (codec) in
/-- A field has the value of the last entity with the number that sets it. -/
theorem joinEntities_field {Value : Type} (set : Entity → Option Value) (get : TgDialog → Value)
    (hset : ∀ d entity, get (entity.toDialog codec d) = (set entity).getD (get d))
    (md : TlDialogs) (dialog : TlDialog) :
    get (joinEntities codec md dialog) =
      (lastSet set (md.numbered dialog)).getD (get (dialogFields dialog)) := by
  rw [joinEntities_eq, foldl_lastSet set get _ hset]

/-- A field that no entity sets is that of the dialog. -/
theorem joinEntities_keep {Value : Type} (get : TgDialog → Value)
    (hkeep : ∀ d (entity : Entity), get (entity.toDialog codec d) = get d)
    (md : TlDialogs) (dialog : TlDialog) :
    get (joinEntities codec md dialog) = get (dialogFields dialog) := by
  rw [joinEntities_eq, foldl_keep hkeep]

theorem joinEntities_peerType (md : TlDialogs) (dialog : TlDialog) :
    (joinEntities codec md dialog).peerType =
      ((md.numbered dialog).getLast?.map fun entity ↦ entity.peer.id).getD 0 := by
  rw [joinEntities_field codec (fun entity ↦ some entity.peer.id) TgDialog.peerType
    fun d entity ↦ by rw [toDialog_eq]; rfl, lastSet_some]
  rfl

theorem joinEntities_name (md : TlDialogs) (dialog : TlDialog) :
    (joinEntities codec md dialog).name =
      ((md.numbered dialog).getLast?.map Entity.name).getD none := by
  rw [joinEntities_field codec (fun entity ↦ some entity.name) TgDialog.name
    fun d entity ↦ by rw [toDialog_eq]; rfl, lastSet_some]
  rfl

theorem joinEntities_accessHash (md : TlDialogs) (dialog : TlDialog) :
    (joinEntities codec md dialog).accessHash =
      (lastSet Entity.accessHash (md.numbered dialog)).getD 0 :=
  joinEntities_field codec Entity.accessHash TgDialog.accessHash
    (fun d entity ↦ by rw [toDialog_eq]) md dialog

theorem joinEntities_photoId (md : TlDialogs) (dialog : TlDialog) :
    (joinEntities codec md dialog).photoId =
      ((lastSet Entity.photo (md.numbered dialog)).map TlProfilePhoto.photoId).getD 0 := by
  rw [← lastSet_map]
  exact joinEntities_field codec _ TgDialog.photoId (fun d entity ↦ by rw [toDialog_eq]) md dialog

theorem joinEntities_thumb (md : TlDialogs) (dialog : TlDialog) :
    (joinEntities codec md dialog).thumb =
      (lastSet Entity.photo (md.numbered dialog)).bind
        fun photo ↦ codec.toImage photo.strippedThumb := by
  have hthumb := joinEntities_field codec _ TgDialog.thumb
    (fun d entity ↦ by rw [toDialog_eq]) md dialog
  rw [hthumb, lastSet_map]
  cases lastSet Entity.photo (md.numbered dialog) <;> rfl

/-- A type is found exactly if an entity has the number. -/
theorem joinEntities_peerType_eq_zero_iff (md : TlDialogs) (dialog : TlDialog) :
    (joinEntities codec md dialog).peerType = 0 ↔ md.numbered dialog = [] := by
  rw [joinEntities_peerType, ← List.getLast?_eq_none_iff]
  cases (md.numbered dialog).getLast? with
  | none => simp
  | some entity => cases entity <;> simp [Entity.peer, idPeerUser, idPeerChannel, idPeerChat]

/-! ## What the messages leave -/

variable (codec) in
/-- A message with the number of the top message, converted. -/
def fillTop (d : TgDialog) (message : TlMessage) : TgDialog :=
  topMessage message ((tgMessageFromTl codec message).getD TgMessageT.zero) d

theorem topMessageText_eq (message : TlMessage) (tgm : TgMessageT) (text : Text) :
    topMessageText message tgm text = (topMessageText message tgm none).or text := by
  unfold topMessageText bufStrdup
  repeat' split
  all_goals first | rfl | skip
  rename_i htitle
  obtain ⟨title, htitle⟩ := Option.isSome_iff_exists.mp htitle
  rw [htitle, Option.some_or]

theorem topMessageFrom_eq (fromId : Option TlPeer) (sender : UInt32 × UInt64) :
    topMessageFrom fromId sender =
      ((fromId.map senderType).getD sender.1, (fromId.bind senderId).getD sender.2) := by
  cases fromId with
  | none => rfl
  | some peer =>
    unfold topMessageFrom
    simp only [Option.map_some, Option.bind_some, Option.getD_some]
    unfold senderType senderId
    split <;> rfl

theorem mem_messages_of_withId {messages : List (Option TlAnyMessage)} {id : UInt32}
    {message : TlMessage} (hmem : message ∈ withId messages id) :
    some (.message message) ∈ messages := by
  obtain ⟨entry, hentry, hmessage⟩ := List.mem_filterMap.mp (List.mem_filter.mp hmem).1
  have hsome : entry = some (.message message) := by
    rcases entry with _ | _ | _ | _ <;> cases hmessage
    rfl
  exact hsome ▸ hentry

/-- The loop over the messages fills the dialog from those with the number, if all of them can be
converted. -/
theorem messageLoop_eq (messages : List (Option TlAnyMessage)) (d : TgDialog) :
    (messageLoop codec messages d).2 =
      if ∃ message ∈ withId messages d.topMessageId, tgMessageFromTl codec message = none then none
      else some ((withId messages d.topMessageId).foldl (fillTop codec) d) := by
  induction messages generalizing d with
  | nil => rfl
  | cons entry messages ih =>
    rcases entry with _ | message | service | id
    · exact ih d
    · rw [messageLoop]
      by_cases hid : message.id = d.topMessageId
      · have hcons : withId (some (.message message) :: messages) d.topMessageId =
            message :: withId messages d.topMessageId := List.filter_cons_of_pos (by simpa using hid)
        rw [if_pos hid, hcons]
        cases hconvert : tgMessageFromTl codec message with
        | none => rw [if_pos ⟨message, List.mem_cons_self, hconvert⟩]
        | some tgm =>
          have hfill : topMessage message tgm d = fillTop codec d message := by
            unfold fillTop
            rw [hconvert]
            rfl
          dsimp only
          rw [ih, hfill]
          simp only [List.mem_cons, exists_eq_or_imp, hconvert, reduceCtorEq, false_or,
            List.foldl_cons]
          rfl
      · have hcons : withId (some (.message message) :: messages) d.topMessageId =
            withId messages d.topMessageId := List.filter_cons_of_neg (by simpa using hid)
        rw [if_neg hid, hcons]
        exact ih d
    · exact ih d
    · exact ih d

/-- The messages leave the last of each field. -/
theorem foldl_fillTop_top (messages : List TlMessage) {d : TgDialog} (hd : d.top = TopFields.zero) :
    (messages.foldl (fillTop codec) d).top = lastTop codec messages := by
  obtain ⟨hzeroDate, hzeroText, hzeroType, hzeroId⟩ := TopFields.mk.inj hd
  have hdate := foldl_lastSet (fun message : TlMessage ↦ some message.date)
    TgDialog.topMessageDate (fillTop codec) (fun _ _ ↦ rfl) messages d
  have htext := foldl_lastSet (fun message ↦ (messageText codec message).map some)
    TgDialog.topMessageText (fillTop codec) (fun d message ↦ by
      unfold fillTop topMessage messageText
      dsimp only
      rw [topMessageText_eq]
      cases topMessageText message _ none <;> rfl) messages d
  have htype := foldl_lastSet (fun message ↦ message.fromId.map senderType)
    TgDialog.topMessageFromPeerType (fillTop codec) (fun d message ↦ by
      unfold fillTop topMessage
      rw [topMessageFrom_eq]) messages d
  have hid := foldl_lastSet (fun message ↦ message.fromId.bind senderId)
    TgDialog.topMessageFromPeerId (fillTop codec) (fun d message ↦ by
      unfold fillTop topMessage
      rw [topMessageFrom_eq]) messages d
  rw [lastSet_map] at htext
  unfold TgDialog.top lastTop
  rw [hdate, htext, htype, hid, hzeroDate, hzeroText, hzeroType, hzeroId]
  cases lastSet (messageText codec) messages <;> rfl

/-! ## A round -/

variable (codec) in
/-- The dialog that is reported. -/
def joined (md : TlDialogs) (dialog : TlDialog) : TgDialog :=
  (md.sameId dialog).foldl (fillTop codec) (joinEntities codec md dialog)

variable (codec onLog) in
/-- What a round does: it ends at a null pointer, passes over a dialog that nothing has the number of,
or reports it. -/
theorem dialogRound_cases (md : TlDialogs) (dialog : TlDialog) :
    (Faults codec onLog md dialog ∧ ∃ stored, dialogRound codec onLog md dialog = .fault stored) ∨
      (¬ Faults codec onLog md dialog ∧ md.numbered dialog = [] ∧
        dialogRound codec onLog md dialog = .skipped) ∨
      (¬ Faults codec onLog md dialog ∧ md.numbered dialog ≠ [] ∧
        ∃ stored, dialogRound codec onLog md dialog = .reported stored (joined codec md dialog)) := by
  have htop : (joinEntities codec md dialog).topMessageId = dialog.topMessage :=
    joinEntities_keep TgDialog.topMessageId (fun d entity ↦ by rw [toDialog_eq]) md dialog
  have hloop : (messageLoop codec md.messages (joinEntities codec md dialog)).2 =
      if ∃ message ∈ md.sameId dialog, tgMessageFromTl codec message = none then none
      else some (joined codec md dialog) := by
    rw [messageLoop_eq, htop]
    rfl
  unfold dialogRound Faults
  by_cases hnumbered : md.numbered dialog = []
  · simp only [(joinEntities_peerType_eq_zero_iff md dialog).mpr hnumbered, hnumbered, if_true]
    by_cases hlog : onLog = true ∧ dialog.peer = none
    · exact .inl ⟨hlog, [], if_pos hlog⟩
    · exact .inr (.inl ⟨hlog, trivial, if_neg hlog⟩)
  · simp only [mt (joinEntities_peerType_eq_zero_iff md dialog).mp hnumbered, hnumbered, if_false]
    rcases hmessages : messageLoop codec md.messages (joinEntities codec md dialog) with
      ⟨stored, last⟩
    rw [hmessages] at hloop
    dsimp only at hloop
    split at hloop
    · next hconvert =>
      rw [hloop]
      exact .inl ⟨hconvert, stored, rfl⟩
    · next hconvert =>
      rw [hloop]
      exact .inr (.inr ⟨hconvert, hnumbered, stored, rfl⟩)

/-- The messages leave what the entities have set. -/
theorem joined_keep {Value : Type} (get : TgDialog → Value)
    (hkeep : ∀ d message, get (fillTop codec d message) = get d) (md : TlDialogs)
    (dialog : TlDialog) : get (joined codec md dialog) = get (joinEntities codec md dialog) :=
  foldl_keep hkeep _ _

theorem joined_top (md : TlDialogs) (dialog : TlDialog) :
    (joined codec md dialog).top = lastTop codec (md.sameId dialog) := by
  apply foldl_fillTop_top
  rw [joinEntities_keep TgDialog.top fun d entity ↦ by rw [toDialog_eq]; rfl]
  rfl

/-! ## One dialog -/

/-- The entity that the peer names is the last with its number, if that one is of the same kind. -/
theorem entityOf_eq {md : TlDialogs} {dialog : TlDialog} {last : Entity}
    (hlast : (md.numbered dialog).getLast? = some last) (hpeer : dialog.peer = some last.peer) :
    md.entityOf dialog = some last := by
  have hnamed : (md.entities.filter fun entity ↦ dialog.peer = some entity.peer) =
      (md.numbered dialog).filter fun entity ↦ dialog.peer = some entity.peer := by
    unfold TlDialogs.numbered
    rw [List.filter_filter]
    apply List.filter_congr
    intro entity _
    by_cases hnamed : dialog.peer = some entity.peer
    · simp [hnamed, peerValue]
    · simp [hnamed]
  obtain ⟨front, hfront⟩ := List.getLast?_eq_some_iff.mp hlast
  unfold TlDialogs.entityOf
  rw [hnamed, hfront, List.filter_append, List.getLast?_append]
  simp [hpeer]

theorem entityOf_some {md : TlDialogs} {dialog : TlDialog} {entity : Entity}
    (hentity : md.entityOf dialog = some entity) :
    dialog.peer = some entity.peer ∧ entity ∈ md.numbered dialog := by
  have hmem := List.mem_filter.mp (List.mem_of_getLast? hentity)
  have hpeer : dialog.peer = some entity.peer := by simpa using hmem.2
  refine ⟨hpeer, List.mem_filter.mpr ⟨hmem.1, ?_⟩⟩
  simp [hpeer, peerValue]

theorem joined_peerType {md : TlDialogs} {dialog : TlDialog} {last : Entity}
    (hlast : (md.numbered dialog).getLast? = some last) :
    (joined codec md dialog).peerType = last.peer.id := by
  rw [joined_keep TgDialog.peerType fun _ _ ↦ rfl, joinEntities_peerType, hlast]
  rfl

theorem joined_name {md : TlDialogs} {dialog : TlDialog} {last : Entity}
    (hlast : (md.numbered dialog).getLast? = some last) :
    (joined codec md dialog).name = last.name := by
  rw [joined_keep TgDialog.name fun _ _ ↦ rfl, joinEntities_name, hlast]
  rfl

theorem joined_accessHash (md : TlDialogs) (dialog : TlDialog) :
    (joined codec md dialog).accessHash =
      (lastSet Entity.accessHash (md.numbered dialog)).getD 0 := by
  rw [joined_keep TgDialog.accessHash fun _ _ ↦ rfl, joinEntities_accessHash]

theorem joined_photo (md : TlDialogs) (dialog : TlDialog) :
    ((joined codec md dialog).photoId, (joined codec md dialog).thumb) =
      photoFields codec (lastSet Entity.photo (md.numbered dialog)) := by
  rw [joined_keep TgDialog.photoId fun _ _ ↦ rfl, joined_keep TgDialog.thumb fun _ _ ↦ rfl,
    joinEntities_photoId, joinEntities_thumb]
  rfl

/-- The dialog that is reported is joined right exactly if nothing else has left something in it. -/
theorem joinedRight_iff {md : TlDialogs} {dialog : TlDialog} (hnumbered : md.numbered dialog ≠ []) :
    JoinedRight codec md dialog (joined codec md dialog) ↔ Unmixed codec md dialog := by
  obtain ⟨last, hlast⟩ := Option.isSome_iff_exists.mp (List.getLast?_isSome.mpr hnumbered)
  constructor
  · rintro ⟨⟨entity, hentity, htype, hhash, -, hphotoId, hthumb⟩, htop⟩
    obtain ⟨hpeer, hmem⟩ := entityOf_some hentity
    have hvalue : peerValue dialog.peer = last.peer.value := by
      simpa using (List.mem_filter.mp (List.mem_of_getLast? hlast)).2
    have hsame : last.peer = entity.peer := by
      rw [joined_peerType hlast] at htype
      rw [hpeer] at hvalue
      cases hp : last.peer
      cases hq : entity.peer
      simp_all [peerValue]
    have hnamed := entityOf_eq hlast (hpeer.trans (by rw [hsame]))
    obtain rfl : last = entity := Option.some.inj (hnamed.symm.trans hentity)
    rw [joined_accessHash] at hhash
    rw [joined_top] at htop
    have hphoto := (joined_photo md dialog).symm.trans (congrArg₂ Prod.mk hphotoId hthumb)
    exact ⟨by rw [hlast, hpeer, Option.map_some], by rw [hphoto, hentity]; rfl,
      by rw [hhash, hentity]; rfl, htop⟩
  · rintro ⟨hkind, hphoto, hhash, hmessages⟩
    rw [hlast, Option.map_some] at hkind
    have hentity := entityOf_eq hlast hkind.symm
    rw [hentity] at hphoto hhash
    obtain ⟨hphotoId, hthumb⟩ := Prod.mk.inj ((joined_photo md dialog).trans hphoto)
    refine ⟨⟨last, hentity, joined_peerType hlast, ?_, joined_name hlast, hphotoId, hthumb⟩, ?_⟩
    · rw [joined_accessHash, hhash]
      rfl
    · rw [joined_top, hmessages]

/-! ## All dialogs of an answer -/

theorem reported_append (first second : List DialogEvent) :
    reported (first ++ second) = reported first ++ reported second := List.filterMap_append

theorem reported_stored (stored : List TgMessageT) :
    reported (stored.map .messageToDatabase) = [] := by
  induction stored with
  | nil => rfl
  | cons tgm stored ih => exact ih

/-- What a round adds to what is reported. -/
theorem reported_dialogLoop_cons (callback : Option DialogCallback) (md : TlDialogs)
    (entry : Option TlAnyDialog) (entries : List (Option TlAnyDialog)) (hash : Option UInt64)
    (n : ℕ) :
    reported (dialogLoop codec onLog callback md (entry :: entries) hash n).1 =
      match dialogSource entry with
      | .skipped => reported (dialogLoop codec onLog callback md entries hash n).1
      | .fault => []
      | .dialog dialog =>
        if Faults codec onLog md dialog then []
        else if md.numbered dialog = [] then
          reported (dialogLoop codec onLog callback md entries hash n).1
        else
          let d := joined codec md dialog
          let called := callDialog callback n dialog d
          reported called.1 ++
            if called.2 then []
            else reported (dialogLoop codec onLog callback md entries
              (hash.map (updateHash · d.topMessageId)) (n + 1)).1 := by
  rw [dialogLoop]
  cases hsource : dialogSource entry with
  | skipped => rfl
  | fault => rfl
  | dialog dialog =>
    dsimp only
    rcases dialogRound_cases codec onLog md dialog with ⟨hfaults, stored, hround⟩ |
      ⟨hfaults, hnumbered, hround⟩ | ⟨hfaults, hnumbered, stored, hround⟩
    · rw [hround, if_pos hfaults]
      exact reported_stored stored
    · rw [hround, if_neg hfaults, if_pos hnumbered]
    · rw [hround, if_neg hfaults, if_neg hnumbered]
      dsimp only
      have hdone (called : List DialogEvent) :
          reported (stored.map .messageToDatabase ++
            .dialogToDatabase (joined codec md dialog) :: called) = reported called := by
        rw [reported_append, reported_stored]
        rfl
      split
      · rw [hdone, List.append_nil]
      · rw [reported_append, hdone]

/-- Whatever is reported is a dialog that is reached and that an entity has the number of. -/
theorem mem_reported {callback : Option DialogCallback} {md : TlDialogs}
    {entries : List (Option TlAnyDialog)} {hash : Option UInt64} {n : ℕ} {report : TlDialog × TgDialog}
    (hreport : report ∈ reported (dialogLoop codec onLog callback md entries hash n).1) :
    report.1 ∈ reachedIn codec onLog md entries ∧ md.numbered report.1 ≠ [] ∧
      report.2 = joined codec md report.1 := by
  induction entries generalizing hash n with
  | nil => cases hreport
  | cons entry entries ih =>
    rw [reported_dialogLoop_cons] at hreport
    unfold reachedIn
    cases hsource : dialogSource entry with
    | skipped =>
      rw [hsource] at hreport
      exact ih hreport
    | fault =>
      rw [hsource] at hreport
      cases hreport
    | dialog dialog =>
      rw [hsource] at hreport
      dsimp only at hreport ⊢
      by_cases hfaults : Faults codec onLog md dialog
      · rw [if_pos hfaults] at hreport
        cases hreport
      rw [if_neg hfaults] at hreport ⊢
      by_cases hnumbered : md.numbered dialog = []
      · rw [if_pos hnumbered] at hreport
        exact And.imp_left (List.mem_cons_of_mem dialog) (ih hreport)
      rw [if_neg hnumbered, List.mem_append] at hreport
      rcases hreport with hcalled | hlater
      · have heq : report = (dialog, joined codec md dialog) := by
          unfold callDialog at hcalled
          split at hcalled
          · cases hcalled
          · simpa [reported] using hcalled
        rw [heq]
        exact ⟨List.mem_cons_self, hnumbered, rfl⟩
      · split at hlater
        · cases hlater
        · exact And.imp_left (List.mem_cons_of_mem dialog) (ih hlater)

/-- A dialog that is reached and that an entity has the number of is handed to a callback that does
not stop. -/
theorem reported_of_reached {md : TlDialogs} {entries : List (Option TlAnyDialog)}
    {hash : Option UInt64} {n : ℕ} {dialog : TlDialog}
    (hreached : dialog ∈ reachedIn codec onLog md entries) (hnumbered : md.numbered dialog ≠ []) :
    (dialog, joined codec md dialog) ∈
      reported (dialogLoop codec onLog (some fun _ _ ↦ 0) md entries hash n).1 := by
  induction entries generalizing hash n with
  | nil => cases hreached
  | cons entry entries ih =>
    unfold reachedIn at hreached
    rw [reported_dialogLoop_cons]
    cases hsource : dialogSource entry with
    | skipped =>
      rw [hsource] at hreached
      exact ih hreached
    | fault =>
      rw [hsource] at hreached
      cases hreached
    | dialog first =>
      rw [hsource] at hreached
      dsimp only at hreached ⊢
      by_cases hfaults : Faults codec onLog md first
      · rw [if_pos hfaults] at hreached
        cases hreached
      rw [if_neg hfaults, List.mem_cons] at hreached
      rw [if_neg hfaults]
      by_cases hfirst : md.numbered first = []
      · rw [if_pos hfirst]
        exact ih (hreached.resolve_left fun heq ↦ hnumbered (heq ▸ hfirst))
      rw [if_neg hfirst, List.mem_append]
      rcases hreached with rfl | hlater
      · exact .inl List.mem_cons_self
      · exact .inr (ih hlater)

theorem reported_fromTl {callback : Option DialogCallback} {t : TgGetDialogs}
    {tl : TlDialogsAnswer} {md : TlDialogs} (hlists : tl.lists = some md) :
    reported (tgDialogsFromTl codec onLog callback t (some tl)).1 =
      reported (dialogLoop codec onLog callback md md.dialogs t.hash 0).1 := by
  cases tl with
  | dialogsSlice count lists =>
    cases hlists
    rfl
  | dialogs lists =>
    cases hlists
    rfl
  | dialogsNotModified => cases hlists
  | rpcError error => cases hlists
  | other id => cases hlists

theorem joinedRight_of_reached {tl : TlDialogsAnswer} {md : TlDialogs} {dialog : TlDialog}
    (hjoins : JoinsRight codec onLog tl) (hlists : tl.lists = some md)
    (hreached : dialog ∈ md.reached codec onLog) (hnumbered : md.numbered dialog ≠ []) :
    JoinedRight codec md dialog (joined codec md dialog) := by
  let t : TgGetDialogs := ⟨0, 0, none, 0, 0, false⟩
  have hreported : (dialog, joined codec md dialog) ∈
      reported (tgDialogsFromTl codec onLog (some fun _ _ ↦ 0) t (some tl)).1 := by
    rw [reported_fromTl hlists]
    exact reported_of_reached hreached hnumbered
  exact hjoins _ t md hlists _ hreported

variable (codec onLog)

/-- Every dialog that is reported has the fields of its own entity and top message exactly if, in
every dialog that is reached, the other entries with its numbers leave nothing. -/
theorem joinsRight_iff (tl : TlDialogsAnswer) :
    JoinsRight codec onLog tl ↔
      ∀ md, tl.lists = some md → ∀ dialog ∈ md.reached codec onLog, md.numbered dialog ≠ [] →
        Unmixed codec md dialog := by
  constructor
  · intro hjoins md hlists dialog hreached hnumbered
    exact (joinedRight_iff hnumbered).mp (joinedRight_of_reached hjoins hlists hreached hnumbered)
  · intro hunmixed callback t md hlists report hreport
    rw [reported_fromTl hlists] at hreport
    obtain ⟨hreached, hnumbered, hjoined⟩ := mem_reported hreport
    rw [hjoined]
    exact (joinedRight_iff hnumbered).mpr (hunmixed md hlists report.1 hreached hnumbered)

/-- Nothing is mixed up where one entity has the number of the peer, and every message with the number
of the top message is the one of its chat. -/
theorem unmixed_of_unshared {md : TlDialogs} {dialog : TlDialog} {entity : Entity}
    (hnumbered : md.numbered dialog = [entity]) (hpeer : dialog.peer = some entity.peer)
    {message : TlMessage}
    (hmessages : md.messages.filter (fun entry ↦ (ownTop codec dialog entry).isSome) =
      [some (.message message)])
    (hsame : md.sameId dialog = [message]) : Unmixed codec md dialog := by
  have hlast : (md.numbered dialog).getLast? = some entity := by rw [hnumbered]; rfl
  have hentity := entityOf_eq hlast hpeer
  refine ⟨?_, ?_, ?_, ?_⟩
  · rw [hlast, hpeer, Option.map_some]
  · rw [hnumbered, hentity, lastSet_singleton]
    rfl
  · rw [hnumbered, hentity, lastSet_singleton]
    rfl
  · have hmem : some (.message message) ∈
        md.messages.filter fun entry ↦ (ownTop codec dialog entry).isSome := by
      rw [hmessages]
      exact List.mem_singleton_self _
    have hown := (List.mem_filter.mp hmem).2
    have htop : md.topOf codec dialog =
        (ownTop codec dialog (some (.message message))).getD TopFields.zero := by
      unfold TlDialogs.topOf
      rw [← lastSet_filter (fun entry ↦ (ownTop codec dialog entry).isSome) md.messages, hmessages,
        lastSet_singleton]
      intro entry _ hentry
      simpa using hentry
    rw [htop, hsame]
    unfold ownTop at hown ⊢
    dsimp only at hown ⊢
    split at hown
    · next hboth =>
      rw [if_pos hboth]
      unfold lastTop topFields
      rw [topMessageFrom_eq]
      simp
    · cases hown

end Codec

/-! ## A number that two kinds share -/

def userDialog : TlDialog where
  pinned := false
  unreadMark := false
  peer := some ⟨idPeerUser, 7⟩
  topMessage := 0
  readInboxMaxId := 0
  readOutboxMaxId := 0
  unreadCount := 0
  unreadMentionsCount := 0
  unreadReactionsCount := 0
  notifySettings := none
  folderId := 0

/-- An answer with this dialog, its top message and the user 7. -/
def userWithTop (message : TlMessage) : TlDialogs where
  dialogs := [some (.dialog userDialog)]
  messages := [some (.message message)]
  chats := []
  users := [some (.user ⟨7, 99, [97], [], none⟩)]

example (message : TlMessage) (hid : message.id = 0) (hpeer : message.peerId = userDialog.peer) :
    Unmixed plainCodec (userWithTop message) userDialog :=
  have hown : (ownTop plainCodec userDialog (some (.message message))).isSome := by
    rw [ownTop, if_pos ⟨hid, hpeer⟩]
    rfl
  unmixed_of_unshared plainCodec rfl rfl (List.filter_eq_self.mpr (List.forall_mem_singleton.mpr hown))
    (List.filter_eq_self.mpr (List.forall_mem_singleton.mpr (decide_eq_true hid)))

/-- An answer with this dialog, the user 7 and the chat 7. -/
def sharedNumber : TlDialogs where
  dialogs := [some (.dialog userDialog)]
  messages := []
  chats := [some (.chat ⟨7, [103], none⟩)]
  users := [some (.user ⟨7, 99, [97], [], none⟩)]

/-- The dialog with the user is reported with the type and the name of the chat. -/
theorem not_joinsRight_sharedNumber : ¬ JoinsRight plainCodec false (.dialogs sharedNumber) := by
  intro hjoins
  have hreached : userDialog ∈ sharedNumber.reached plainCodec false := by decide
  have hnumbered : sharedNumber.numbered userDialog ≠ [] := by decide
  have hjoined := joinedRight_of_reached hjoins rfl hreached hnumbered
  have hkind := ((joinedRight_iff hnumbered).mp hjoined).kind
  exact absurd hkind (by decide)

end LibTg.Tg
