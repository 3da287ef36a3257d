import LibTg.Tg.Dispatch
import LibTg.Tg.MessageStore
import LibTg.Tl.Buf

/-!
# Messages (`tg/messages.h`, `tg/messages.c`)

`tg_message_from_tl` and `tg_message_from_tl_service` fill a `tg_message_t` from the decoded structs
`tl_message_t` and `tl_messageService_t`. The structs below have the fields that these functions
read. A pointer is an `Option`; where the code asks for one constructor behind a pointer, `none` also
stands for any other object. Following a null pointer has no result.
-/

namespace LibTg.Tg

open LibTg.Tl

/-- A C string behind a pointer that may be null. -/
abbrev Text := Option (List Char)

/-! ## Decoded structs -/

/-- An object of type `Peer`: its constructor, and the number that all three constructors begin
with. -/
structure TlPeer where
  id : UInt32
  value : UInt64
  deriving DecidableEq, Repr

/-- `tl_messageFwdHeader_t`. -/
structure TlFwdHeader where
  imported : Bool
  savedOut : Bool
  fromId : Option TlPeer
  fromName : Bytes
  date : UInt32
  channelPost : UInt32
  postAuthor : Bytes
  savedFromPeer : Option TlPeer
  savedFromMsgId : UInt32
  savedFromId : Option TlPeer
  savedFromName : Bytes
  savedDate : UInt32
  psaType : Bytes
  deriving DecidableEq, Repr

/-- `tl_messageReplyHeader_t`. -/
structure TlReplyHeader where
  replyToScheduled : Bool
  forumTopic : Bool
  quote : Bool
  replyToMsgId : UInt32
  replyToPeerId : Option TlPeer
  replyFrom : Option TlFwdHeader
  replyToTopId : UInt32
  quoteText : Bytes
  quoteOffset : UInt32
  deriving DecidableEq, Repr

/-- The objects of type `MessageEntity` that are told apart. -/
inductive TlEntity
  | textUrl (offset length : UInt32) (url : Bytes)
  | blockquote (collapsed : Bool) (offset length : UInt32)
  | mentionName (offset length : UInt32) (userId : UInt64)
  | customEmoji (offset length : UInt32) (documentId : UInt64)
  | other (id offset length : UInt32)
  deriving DecidableEq, Repr

/-- The objects of type `PhotoSize` that are told apart. -/
inductive TlPhotoSize
  | photoSize (type : Bytes) (w h : UInt32)
  | photoCachedSize (w h : UInt32)
  | photoStrippedSize (bytes : Bytes)
  | photoPathSize (bytes : Bytes)
  | other
  deriving DecidableEq, Repr

/-- The objects of type `VideoSize` that are told apart. The start is the bits of a `double`. -/
inductive TlVideoSize
  | videoSize (type : Bytes) (w h size : UInt32) (videoStartTs : UInt64)
  | other
  deriving DecidableEq, Repr

/-- `tl_photo_t`. -/
structure TlPhoto where
  id : UInt64
  accessHash : UInt64
  fileReference : Bytes
  date : UInt32
  sizes : List (Option TlPhotoSize)
  dcId : UInt32
  deriving DecidableEq, Repr

/-- `tl_geoPoint_t`. -/
structure TlGeoPoint where
  long : UInt64
  lat : UInt64
  accessHash : UInt64
  accuracyRadius : UInt32
  deriving DecidableEq, Repr

/-- The objects of type `DocumentAttribute` that are told apart. -/
inductive TlAttribute
  | imageSize (w h : UInt32)
  | video (duration : UInt64) (w h : UInt32)
  | audio (duration : UInt32) (title : Bytes)
  | filename (fileName : Bytes)
  | sticker (alt : Bytes)
  | other
  deriving DecidableEq, Repr

/-- `tl_document_t`. -/
structure TlDocument where
  id : UInt64
  accessHash : UInt64
  fileReference : Bytes
  date : UInt32
  size : UInt64
  thumbs : List (Option TlPhotoSize)
  videoThumbs : List (Option TlVideoSize)
  dcId : UInt32
  attributes : List (Option TlAttribute)
  deriving DecidableEq, Repr

/-- `tl_webPage_t`. -/
structure TlWebPage where
  id : UInt64
  url : Bytes
  displayUrl : Bytes
  hash : UInt32
  type : Bytes
  siteName : Bytes
  title : Bytes
  description : Bytes
  photo : Option TlPhoto
  deriving DecidableEq, Repr

/-- The objects of type `MessageMedia` that are told apart. -/
inductive TlMedia
  | photo (photo : Option TlPhoto)
  | geo (geo : Option TlGeoPoint)
  | document (video round voice : Bool) (document : Option TlDocument)
  | webPage (webpage : Option TlWebPage)
  | contact (phoneNumber firstName lastName vcard : Bytes) (userId : UInt64)
  | other (id : UInt32)
  deriving DecidableEq, Repr

/-- `tl_message_t`. -/
structure TlMessage where
  buf : Bytes
  out : Bool
  mentioned : Bool
  mediaUnread : Bool
  silent : Bool
  post : Bool
  fromScheduled : Bool
  legacy : Bool
  editHide : Bool
  pinned : Bool
  noforwards : Bool
  invertMedia : Bool
  offline : Bool
  id : UInt32
  fromId : Option TlPeer
  fromBoostsApplied : UInt32
  peerId : Option TlPeer
  savedPeerId : Option TlPeer
  replyTo : Option TlReplyHeader
  date : UInt32
  message : Bytes
  media : Option TlMedia
  entities : List (Option TlEntity)
  ttlPeriod : UInt32
  deriving DecidableEq, Repr

/-- Why a phone call has ended. -/
inductive TlDiscardReason
  | missed
  | disconnect
  | hangup
  | busy
  | other (id : UInt32)
  deriving DecidableEq, Repr

/-- The objects of type `MessageAction` that are told apart. -/
inductive TlAction
  | empty
  | chatCreate (title : Bytes)
  | chatEditTitle (title : Bytes)
  | chatEditPhoto
  | chatDeletePhoto
  | chatAddUser (users : List UInt64)
  | chatDeleteUser (userId : UInt64)
  | chatJoinedByLink (inviterId : UInt64)
  | channelCreate (title : Bytes)
  | chatMigrateTo (channelId : UInt64)
  | channelMigrateFrom (chatId : UInt64)
  | phoneCall (video : Bool) (callId : UInt64) (reason : Option TlDiscardReason) (duration : UInt32)
  | customAction (message : Bytes)
  | other (id : UInt32)
  deriving DecidableEq, Repr

/-- `tl_messageService_t`. -/
structure TlMessageService where
  buf : Bytes
  out : Bool
  mentioned : Bool
  mediaUnread : Bool
  silent : Bool
  post : Bool
  legacy : Bool
  id : UInt32
  fromId : Option TlPeer
  peerId : Option TlPeer
  replyTo : Option TlReplyHeader
  date : UInt32
  action : Option TlAction
  ttlPeriod : UInt32
  deriving DecidableEq, Repr

/-! ## The record -/

/-- `tg_message_fwd_header_t`. -/
structure TgFwdHeader where
  imported : Bool := false
  savedOut : Bool := false
  fromId : UInt64 := 0
  typeFromId : UInt32 := 0
  fromName : Text := none
  date : UInt32 := 0
  channelPost : UInt32 := 0
  postAuthor : Text := none
  savedFromPeer : UInt64 := 0
  typeSavedFromPeer : UInt32 := 0
  savedFromMsgId : UInt32 := 0
  savedFromId : UInt64 := 0
  typeSavedFromId : UInt32 := 0
  savedFromName : Text := none
  savedDate : UInt32 := 0
  psaType : Text := none
  deriving DecidableEq, Repr

/-- `tg_message_reply_header_t`. -/
structure TgReplyHeader where
  replyToScheduled : Bool := false
  forumTopic : Bool := false
  quote : Bool := false
  replyToMsgId : UInt32 := 0
  replyToPeerId : UInt64 := 0
  typeReplyToPeerId : UInt32 := 0
  replyToTopId : UInt32 := 0
  quoteText : Text := none
  quoteOffset : UInt32 := 0
  replyFrom : TgFwdHeader := {}
  deriving DecidableEq, Repr

/-- `tg_message_entity_t`. -/
structure TgEntity where
  entityType : UInt32 := 0
  offset : UInt32 := 0
  length : UInt32 := 0
  userId : UInt64 := 0
  documentId : UInt64 := 0
  collapsed : Bool := false
  url : Text := none
  deriving DecidableEq, Repr

/-- `tg_message_t`, without the fields that nothing sets; the first fields are those that are stored.
The values given here are those of a zeroed record. -/
structure TgMessageT extends TgMessage where
  out : Bool := false
  mentioned : Bool := false
  mediaUnread : Bool := false
  silent : Bool := false
  post : Bool := false
  fromScheduled : Bool := false
  legacy : Bool := false
  editHide : Bool := false
  pinned : Bool := false
  noforwards : Bool := false
  invertMedia : Bool := false
  offline : Bool := false
  fromId : UInt64 := 0
  typeFromId : UInt32 := 0
  fromBoostsApplied : UInt32 := 0
  typePeerId : UInt32 := 0
  savedPeerId : UInt64 := 0
  typeSavedPeerId : UInt32 := 0
  message : Text := none
  mediaType : UInt32 := 0
  photoId : UInt64 := 0
  photoAccessHash : UInt64 := 0
  photoDcId : UInt32 := 0
  photoDate : UInt32 := 0
  photoFileReference : Text := none
  photoStripped : Text := none
  photoCachedSize : Text := none
  photoSizes : Text := none
  photoSvg : Text := none
  geoLong : UInt64 := 0
  geoLat : UInt64 := 0
  geoAccessHash : UInt64 := 0
  geoAccuracyRadius : UInt32 := 0
  videoSizes : Text := none
  docIsVideo : Bool := false
  docIsRound : Bool := false
  docIsVoice : Bool := false
  docId : UInt64 := 0
  docAccessHash : UInt64 := 0
  docFileReference : Text := none
  docDate : UInt32 := 0
  docSize : UInt64 := 0
  docDcId : UInt32 := 0
  docFileName : Text := none
  docW : UInt32 := 0
  docH : UInt32 := 0
  docVw : UInt32 := 0
  docVh : UInt32 := 0
  docAduration : UInt64 := 0
  docVduration : UInt64 := 0
  docTitle : Text := none
  webId : UInt64 := 0
  webUrl : Text := none
  webDisplayUrl : Text := none
  webHash : UInt32 := 0
  webType : Text := none
  webSiteName : Text := none
  webTitle : Text := none
  webDescription : Text := none
  webPhotoId : UInt64 := 0
  webPhotoAccessHash : UInt64 := 0
  webPhotoDcId : UInt32 := 0
  webPhotoDate : UInt32 := 0
  webPhotoFileReference : Text := none
  contactPhoneNumber : Text := none
  contactFirstName : Text := none
  contactLastName : Text := none
  contactVcard : Text := none
  contactUserId : UInt64 := 0
  isService : Bool := false
  ttlPeriod : UInt32 := 0
  replyTo : TgReplyHeader := {}
  isSticker : Bool := false
  phoneCallVideo : Bool := false
  phoneCallId : UInt64 := 0
  phoneCallDuration : UInt32 := 0
  phoneCallReason : UInt32 := 0
  entities : List TgEntity := []
  deriving DecidableEq, Repr

/-- `memset(tgm, 0, sizeof(tg_message_t))`. -/
def TgMessageT.zero : TgMessageT := { id := 0, peerId := 0, date := 0, messageData := [] }

/-! ## Conversions -/

/-- The functions that texts are made with: `buf_to_base64`, the same after
`image_from_photo_stripped`, `image_from_svg_path`, `%lf`, the conversion of a `double` to an
integer, and `TL_NAME_FROM_ID`. -/
structure Codec where
  toBase64 : Bytes → Text
  toImage : Bytes → Text
  svgPath : Bytes → Text
  printDouble : UInt64 → List Char
  truncate : UInt64 → UInt64
  tlName : UInt32 → List Char

/-- Functions that make no text. -/
def plainCodec : Codec where
  toBase64 _ := none
  toImage _ := none
  svgPath _ := none
  printDouble _ := []
  truncate value := value
  tlName _ := []

/-- `buf_strdup` and `BUF2STR`. -/
def bufStrdup (bytes : Bytes) : Text := some (cString bytes)

/-- `buf_strdup` under the test for a text that is not empty. -/
def bufStrdupNonempty (bytes : Bytes) : Text := if bytes = [] then none else bufStrdup bytes

/-- The number of a peer, or zero. -/
def peerValue (peer : Option TlPeer) : UInt64 := (peer.map TlPeer.value).getD 0

/-- The constructor of a peer, or zero. -/
def peerType (peer : Option TlPeer) : UInt32 := (peer.map TlPeer.id).getD 0

def tgMessageFwd (tlh : TlFwdHeader) : TgFwdHeader where
  imported := tlh.imported
  savedOut := tlh.savedOut
  fromId := peerValue tlh.fromId
  typeFromId := peerType tlh.fromId
  fromName := bufStrdupNonempty tlh.fromName
  date := tlh.date
  channelPost := tlh.channelPost
  postAuthor := bufStrdupNonempty tlh.postAuthor
  savedFromPeer := peerValue tlh.savedFromPeer
  typeSavedFromPeer := peerType tlh.savedFromPeer
  savedFromMsgId := tlh.savedFromMsgId
  savedFromId := peerValue tlh.savedFromId
  typeSavedFromId := peerType tlh.savedFromId
  savedFromName := bufStrdupNonempty tlh.savedFromName
  savedDate := tlh.savedDate
  psaType := bufStrdupNonempty tlh.psaType

def tgMessageReply (tlh : TlReplyHeader) : TgReplyHeader where
  replyToScheduled := tlh.replyToScheduled
  forumTopic := tlh.forumTopic
  quote := tlh.quote
  replyToMsgId := tlh.replyToMsgId
  replyToPeerId := peerValue tlh.replyToPeerId
  typeReplyToPeerId := peerType tlh.replyToPeerId
  replyToTopId := tlh.replyToTopId
  quoteText := bufStrdupNonempty tlh.quoteText
  quoteOffset := tlh.quoteOffset
  replyFrom := (tlh.replyFrom.map tgMessageFwd).getD {}

/-- A header behind a pointer, if there is one. -/
def replyOf (replyTo : Option TlReplyHeader) : TgReplyHeader := (replyTo.map tgMessageReply).getD {}

def tgEntity : TlEntity → TgEntity
  | .textUrl offset length url =>
    { entityType := 0x76a6d327, offset := offset, length := length, url := bufStrdup url }
  | .blockquote collapsed offset length =>
    { entityType := 0xf1ccaaac, offset := offset, length := length, collapsed := collapsed }
  | .mentionName offset length userId =>
    { entityType := 0xdc7b1140, offset := offset, length := length, userId := userId }
  | .customEmoji offset length documentId =>
    { entityType := 0xc8cf05f8, offset := offset, length := length, documentId := documentId }
  | .other id offset length => { entityType := id, offset := offset, length := length }

/-- A `uint32_t` as `%d` prints it. -/
def printUi32 (value : UInt32) : List Char := printInt value.toInt32.toInt

section Codec

variable (codec : Codec)

/-- One round of `photo_sizes`, with the text so far. -/
def photoSizeRound : TgMessageT × List Char → Option TlPhotoSize → TgMessageT × List Char
  | (tgm, text), some (.photoSize type w h) =>
    (tgm, text ++ cString type ++ '=' :: printUi32 w ++ 'x' :: printUi32 h ++ [' '])
  | (tgm, text), some (.photoCachedSize w h) =>
    ({ tgm with photoCachedSize := some ((printUi32 w ++ 'x' :: printUi32 h).take 30) }, text)
  | (tgm, text), some (.photoStrippedSize bytes) =>
    ({ tgm with photoStripped := codec.toImage bytes }, text)
  | (tgm, text), some (.photoPathSize bytes) =>
    ({ tgm with photoSvg := codec.svgPath bytes }, text)
  | result, _ => result

def photoSizes (sizes : List (Option TlPhotoSize)) (tgm : TgMessageT) : TgMessageT :=
  let result := sizes.foldl (photoSizeRound codec) (tgm, [])
  { result.1 with photoSizes := some result.2 }

/-- One round of `video_sizes`. -/
def videoSizeText : Option TlVideoSize → List Char
  | some (.videoSize type w h size videoStartTs) =>
    cString type ++ '=' :: printUi32 w ++ 'x' :: printUi32 h ++ '=' :: printUi32 size ++
      '=' :: codec.printDouble videoStartTs ++ [' ']
  | _ => []

def videoSizes (sizes : List (Option TlVideoSize)) (tgm : TgMessageT) : TgMessageT :=
  { tgm with videoSizes := some (sizes.flatMap (videoSizeText codec)) }

/-- One round of the loop over the attributes of a document. -/
def attributeRound (tgm : TgMessageT) : Option TlAttribute → TgMessageT
  | some (.imageSize w h) => { tgm with docW := w, docH := h }
  | some (.video duration w h) =>
    { tgm with docVw := w, docVh := h, docVduration := codec.truncate duration, docIsVideo := true }
  | some (.audio duration title) =>
    { tgm with docTitle := bufStrdup title, docAduration := duration.toUInt64 }
  | some (.filename fileName) => { tgm with docFileName := bufStrdup fileName }
  | some (.sticker alt) => { tgm with message := bufStrdup alt, isSticker := true }
  | _ => tgm

/-- The case `messageMediaPhoto`. -/
def photoMedia (photo : TlPhoto) (tgm : TgMessageT) : TgMessageT :=
  photoSizes codec photo.sizes
    { tgm with
      photoAccessHash := photo.accessHash
      photoId := photo.id
      photoDcId := photo.dcId
      photoDate := photo.date
      photoFileReference := codec.toBase64 photo.fileReference }

/-- The case `messageMediaDocument`. `doc_isVoice` is assigned twice, and `doc_isVideo` only for an
attribute. -/
def documentMedia (round voice : Bool) (doc : TlDocument) (tgm : TgMessageT) : TgMessageT :=
  let tgm :=
    { tgm with
      docIsRound := round
      docIsVoice := voice
      docId := doc.id
      docAccessHash := doc.accessHash
      docFileReference := codec.toBase64 doc.fileReference
      docDate := doc.date
      docSize := doc.size
      docDcId := doc.dcId }
  doc.attributes.foldl (attributeRound codec)
    (videoSizes codec doc.videoThumbs (photoSizes codec doc.thumbs tgm))

/-- The case `messageMediaWebPage`. -/
def webPageMedia (web : TlWebPage) (tgm : TgMessageT) : TgMessageT :=
  let tgm :=
    { tgm with
      webId := web.id
      webUrl := bufStrdup web.url
      webDisplayUrl := bufStrdup web.displayUrl
      webHash := web.hash
      webType := bufStrdup web.type
      webSiteName := bufStrdup web.siteName
      webTitle := bufStrdup web.title
      webDescription := bufStrdup web.description }
  match web.photo with
  | none => tgm
  | some photo =>
    { tgm with
      webPhotoId := photo.id
      webPhotoAccessHash := photo.accessHash
      webPhotoDcId := photo.dcId
      webPhotoDate := photo.date
      webPhotoFileReference := codec.toBase64 photo.fileReference }

/-- The constructor of a medium. -/
def TlMedia.id : TlMedia → UInt32
  | .photo _ => 0x695150d7
  | .geo _ => 0x56e0d474
  | .document _ _ _ _ => 0x4cf4d72d
  | .webPage _ => 0xddf10c3b
  | .contact _ _ _ _ _ => 0x70322949
  | .other id => id

/-- The part of `tg_message_from_tl` for the medium. -/
def mediaFromTl (media : TlMedia) (tgm : TgMessageT) : TgMessageT :=
  let tgm := { tgm with mediaType := media.id }
  match media with
  | .photo (some photo) => photoMedia codec photo tgm
  | .geo (some geo) =>
    { tgm with
      geoLong := geo.long
      geoLat := geo.lat
      geoAccessHash := geo.accessHash
      geoAccuracyRadius := geo.accuracyRadius }
  | .document _ round voice (some doc) => documentMedia codec round voice doc tgm
  | .webPage (some web) => webPageMedia codec web tgm
  | .contact phoneNumber firstName lastName vcard userId =>
    { tgm with
      contactPhoneNumber := bufStrdup phoneNumber
      contactFirstName := bufStrdup firstName
      contactLastName := bufStrdup lastName
      contactVcard := bufStrdup vcard
      contactUserId := userId }
  | _ => tgm

/-- `tg_message_from_tl`. `TG_MESSAGE_ARGS` marks `ttl_period_` as a field that is not copied. -/
def tgMessageFromTl (tlm : TlMessage) : Option TgMessageT := do
  let entities ← tlm.entities.mapM fun entity ↦ entity.map tgEntity
  let tgm : TgMessageT :=
    { id := tlm.id
      peerId := peerValue tlm.peerId
      date := tlm.date
      messageData := tlm.buf
      out := tlm.out
      mentioned := tlm.mentioned
      mediaUnread := tlm.mediaUnread
      silent := tlm.silent
      post := tlm.post
      fromScheduled := tlm.fromScheduled
      legacy := tlm.legacy
      editHide := tlm.editHide
      pinned := tlm.pinned
      noforwards := tlm.noforwards
      invertMedia := tlm.invertMedia
      offline := tlm.offline
      fromId := peerValue tlm.fromId
      typeFromId := peerType tlm.fromId
      fromBoostsApplied := tlm.fromBoostsApplied
      typePeerId := peerType tlm.peerId
      savedPeerId := peerValue tlm.savedPeerId
      typeSavedPeerId := peerType tlm.savedPeerId
      message := bufStrdupNonempty tlm.message
      replyTo := replyOf tlm.replyTo
      entities := entities }
  some (match tlm.media with
    | none => tgm
    | some media => mediaFromTl codec media tgm)

/-- `STR(...)`: a text in a buffer of `BUFSIZ` bytes. -/
def str (text : List Char) : List Char := text.take (bufsiz - 2)

/-- A number as `%ld` prints it. -/
def printUi64 (value : UInt64) : List Char := printInt value.toInt64.toInt

/-- The text for the end of a phone call. -/
def phoneCallText (video : Bool) : TlDiscardReason → Option (List Char)
  | .missed => some (if video then "missed video call" else "missed phone call").toList
  | .disconnect =>
    some (if video then "video call disconnected" else "phone call disconnected").toList
  | .hangup => some (if video then "video call hanged up" else "phone call hanged up").toList
  | .busy => some (if video then "video call busy" else "phone call busy").toList
  | .other _ => none

/-- The constructor of the reason. -/
def TlDiscardReason.id : TlDiscardReason → UInt32
  | .missed => 0x85e42301
  | .disconnect => 0xe095c1a0
  | .hangup => 0x57adc690
  | .busy => 0xfaf7e8c9
  | .other id => id

def idUser : UInt32 := 0x83314fca

/-- The switch over the action in `tg_message_from_tl_service`. The reason of a phone call is read
before the test that it is there, and a user is compared with the number of a constructor. -/
def actionFromTl (tgm : TgMessageT) : TlAction → Option TgMessageT
  | .empty => some { tgm with message := some "empty".toList }
  | .chatCreate title =>
    some { tgm with message := some (str ("chat create: \"".toList ++ cString title ++ ['"'])) }
  | .chatEditTitle title =>
    some { tgm with message := some (str ("chat edit title: \"".toList ++ cString title ++ ['"'])) }
  | .chatEditPhoto => some { tgm with message := some "chat edit photo".toList }
  | .chatDeletePhoto => some { tgm with message := some "chat delete photo".toList }
  | .chatAddUser users =>
    let shown := users.takeWhile (· = idUser.toUInt64)
    some { tgm with
      message := some ("chat add users: ".toList ++ shown.flatMap fun user ↦ printUi64 user ++ [' ']) }
  | .chatDeleteUser userId =>
    some { tgm with message := some (str ("chat delete user: ".toList ++ printUi64 userId)) }
  | .chatJoinedByLink inviterId =>
    some { tgm with message := some (str ("chat joined by link: ".toList ++ printUi64 inviterId)) }
  | .channelCreate title =>
    some { tgm with message := some (str ("channel create: \"".toList ++ cString title ++ ['"'])) }
  | .chatMigrateTo channelId =>
    some { tgm with message := some (str ("chat migrate to: ".toList ++ printUi64 channelId)) }
  | .channelMigrateFrom chatId =>
    some { tgm with message := some (str ("chat migrate from: ".toList ++ printUi64 chatId)) }
  | .phoneCall video callId reason duration =>
    reason.map fun reason ↦
      { tgm with
        phoneCallVideo := video
        phoneCallId := callId
        phoneCallDuration := duration
        phoneCallReason := reason.id
        message := phoneCallText video reason }
  | .customAction message => some { tgm with message := bufStrdup message }
  | .other id => some { tgm with message := some (codec.tlName id) }

def tgMessageFromTlService (tlm : TlMessageService) : Option TgMessageT := do
  let action ← tlm.action
  let tgm ← actionFromTl codec
    { id := tlm.id
      peerId := peerValue tlm.peerId
      date := tlm.date
      messageData := tlm.buf
      isService := true
      out := tlm.out
      mentioned := tlm.mentioned
      mediaUnread := tlm.mediaUnread
      silent := tlm.silent
      post := tlm.post
      legacy := tlm.legacy
      fromId := peerValue tlm.fromId
      typeFromId := peerType tlm.fromId
      typePeerId := peerType tlm.peerId
      replyTo := replyOf tlm.replyTo } action
  some { tgm with ttlPeriod := tlm.ttlPeriod }

end Codec

end LibTg.Tg
