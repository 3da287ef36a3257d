import LibTg.Tg.Updates

/-!
# The three ways of a new message

A new message comes as an `updateShortMessage`, as an `updateShortChatMessage`, or as a `message`
inside an `updateNewMessage`. Each way copies the fields of the message on its own. The number, the
text and the period of a message survive under conditions that differ from way to way.
-/

namespace LibTg.Tg

open LibTg.Tl

/-- What a message says. -/
structure MessageContent where
  id : UInt32
  text : Bytes
  date : UInt32
  out : Bool
  mentioned : Bool
  mediaUnread : Bool
  silent : Bool
  ttlPeriod : UInt32
  deriving DecidableEq, Repr

/-- The objects that an update comes in. -/
inductive Container
  | updateShort
  | updatesCombined
  | updates
  deriving DecidableEq, Repr

/-- An object with one update. -/
def Container.object (update : TlUpdate) : Container → TlUpdates
  | .updateShort => .updateShort (some update)
  | .updatesCombined => .updatesCombined [some update]
  | .updates => .updates [some update]

/-- A way for a message to arrive, with what is not part of its content. -/
inductive MessageWay
  | short
  | shortChat (fromId chatId : UInt64)
  | newMessage (container : Container) (tlm : TlMessage)
  deriving DecidableEq, Repr

/-- A `tl_message_t` with this content. -/
def MessageContent.toMessage (content : MessageContent) (tlm : TlMessage) : TlMessage :=
  { tlm with
    id := content.id
    message := content.text
    date := content.date
    out := content.out
    mentioned := content.mentioned
    mediaUnread := content.mediaUnread
    silent := content.silent
    ttlPeriod := content.ttlPeriod }

/-- The object that arrives. -/
def MessageWay.object (content : MessageContent) : MessageWay → TlUpdates
  | .short =>
    .updateShortMessage
      { out := content.out
        mentioned := content.mentioned
        mediaUnread := content.mediaUnread
        silent := content.silent
        id := content.id
        message := content.text
        date := content.date
        ttlPeriod := content.ttlPeriod }
  | .shortChat fromId chatId =>
    .updateShortChatMessage
      { out := content.out
        mentioned := content.mentioned
        mediaUnread := content.mediaUnread
        silent := content.silent
        id := content.id
        fromId := fromId
        chatId := chatId
        message := content.text
        date := content.date
        ttlPeriod := content.ttlPeriod }
  | .newMessage container tlm =>
    container.object (.newMessage (some (.message (content.toMessage tlm))))

def charsOf (text : Bytes) : List Char := text.map fun byte ↦ Char.ofNat byte.toNat

/-- A `tg_message_t` says what the message says. -/
structure TgMessageT.Conveys (tgm : TgMessageT) (content : MessageContent) : Prop where
  id : tgm.id = content.id
  text : tgm.message = some (charsOf content.text)
  date : tgm.date = content.date
  out : tgm.out = content.out
  mentioned : tgm.mentioned = content.mentioned
  mediaUnread : tgm.mediaUnread = content.mediaUnread
  silent : tgm.silent = content.silent
  ttlPeriod : tgm.ttlPeriod = content.ttlPeriod

/-- The message that a report hands to `on_update`. -/
def Report.update? : Report → Option (Option TgMessageT)
  | .onUpdate tgm => some tgm
  | .onChatUpdate _ tgm => some tgm
  | _ => none

/-- `on_update` is called once, with a message that says what the arriving message says. -/
def Arrives (codec : Codec) (onLog : Bool) (content : MessageContent) (tl : TlUpdates) : Prop :=
  ∃ reports tgm, tgDoUpdates codec onLog tl = some (reports, 0) ∧
    reports.filterMap Report.update? = [some tgm] ∧ tgm.Conveys content

/-! ## When a message arrives as it is -/

/-- The text of the last attribute `documentAttributeSticker`. -/
def stickerAlt (attributes : List (Option TlAttribute)) : Option Bytes :=
  attributes.foldl
    (fun alt entry ↦
      match entry with
      | some (.sticker other) => some other
      | _ => alt)
    none

/-- The text of the sticker that a medium is. -/
def TlMedia.stickerAlt? : TlMedia → Option Bytes
  | .document _ _ _ (some doc) => stickerAlt doc.attributes
  | _ => none

/-- The text of a `message` is kept: it is the text of the sticker if the medium is one, and else it
is not empty and has no zero in it. -/
def TextKept (text : Bytes) (media : Option TlMedia) : Prop :=
  match media.bind TlMedia.stickerAlt? with
  | some alt => cString alt = charsOf text
  | none => text ≠ [] ∧ 0 ∉ text

/-- The condition for a way of arriving. -/
def MessageWay.Faithful (content : MessageContent) : MessageWay → Prop
  | .short => 0 ∉ content.text
  | .shortChat _ _ => content.id = 0x4d6deea5 ∧ 0 ∉ content.text
  | .newMessage _ tlm =>
    none ∉ tlm.entities ∧ content.ttlPeriod = 0 ∧ TextKept content.text tlm.media

/-! ## The copied fields -/

section Copies

variable (codec : Codec)

/-- A `tg_message_t` with nothing but a content. -/
def messageOfContent (content : MessageContent) : TgMessageT :=
  { TgMessageT.zero with
    id := content.id
    date := content.date
    out := content.out
    mentioned := content.mentioned
    mediaUnread := content.mediaUnread
    silent := content.silent
    ttlPeriod := content.ttlPeriod }

/-- The fields that say what a message says, without the text. -/
structure SameContent (first second : TgMessageT) : Prop where
  id : first.id = second.id
  date : first.date = second.date
  out : first.out = second.out
  mentioned : first.mentioned = second.mentioned
  mediaUnread : first.mediaUnread = second.mediaUnread
  silent : first.silent = second.silent
  ttlPeriod : first.ttlPeriod = second.ttlPeriod

theorem SameContent.rfl {tgm : TgMessageT} : SameContent tgm tgm := by constructor <;> rfl

theorem SameContent.trans {first second third : TgMessageT} (h : SameContent first second)
    (h' : SameContent second third) : SameContent first third :=
  ⟨h.id.trans h'.id, h.date.trans h'.date, h.out.trans h'.out, h.mentioned.trans h'.mentioned,
    h.mediaUnread.trans h'.mediaUnread, h.silent.trans h'.silent, h.ttlPeriod.trans h'.ttlPeriod⟩

theorem photoSizeRound_same (result : TgMessageT × List Char) (size : Option TlPhotoSize) :
    SameContent (photoSizeRound codec result size).1 result.1 ∧
      (photoSizeRound codec result size).1.message = result.1.message := by
  obtain ⟨tgm, text⟩ := result
  cases size with
  | none => exact ⟨.rfl, rfl⟩
  | some size => cases size <;> exact ⟨⟨rfl, rfl, rfl, rfl, rfl, rfl, rfl⟩, rfl⟩

theorem photoSizes_same (sizes : List (Option TlPhotoSize)) (tgm : TgMessageT) :
    SameContent (photoSizes codec sizes tgm) tgm ∧
      (photoSizes codec sizes tgm).message = tgm.message := by
  have hfold (start : TgMessageT × List Char) :
      SameContent (sizes.foldl (photoSizeRound codec) start).1 start.1 ∧
        (sizes.foldl (photoSizeRound codec) start).1.message = start.1.message := by
    induction sizes generalizing start with
    | nil => exact ⟨.rfl, rfl⟩
    | cons size sizes ih =>
      obtain ⟨hfirst, hmessage⟩ := photoSizeRound_same codec start size
      obtain ⟨hrest, hmessage'⟩ := ih (photoSizeRound codec start size)
      exact ⟨hrest.trans hfirst, hmessage'.trans hmessage⟩
  obtain ⟨hsame, hmessage⟩ := hfold (tgm, [])
  exact ⟨⟨hsame.id, hsame.date, hsame.out, hsame.mentioned, hsame.mediaUnread, hsame.silent,
    hsame.ttlPeriod⟩, hmessage⟩

theorem videoSizes_same (sizes : List (Option TlVideoSize)) (tgm : TgMessageT) :
    SameContent (videoSizes codec sizes tgm) tgm :=
  ⟨rfl, rfl, rfl, rfl, rfl, rfl, rfl⟩

/-- An attribute changes the text if it is one of a sticker. -/
theorem attributes_same (attributes : List (Option TlAttribute)) (tgm : TgMessageT) :
    SameContent (attributes.foldl (attributeRound codec) tgm) tgm ∧
      (attributes.foldl (attributeRound codec) tgm).message =
        ((stickerAlt attributes).map cString).or tgm.message := by
  have hround (entry : Option TlAttribute) (start : TgMessageT) :
      SameContent (attributeRound codec start entry) start := by
    cases entry with
    | none => exact .rfl
    | some entry => cases entry <;> exact ⟨rfl, rfl, rfl, rfl, rfl, rfl, rfl⟩
  induction attributes using List.reverseRecOn with
  | nil => exact ⟨.rfl, (Option.none_or).symm⟩
  | append_singleton entries entry ih =>
    obtain ⟨hsame, hmessage⟩ := ih
    unfold stickerAlt at hmessage ⊢
    rw [List.foldl_append, List.foldl_append, List.foldl_cons, List.foldl_nil, List.foldl_cons,
      List.foldl_nil]
    refine ⟨(hround entry _).trans hsame, ?_⟩
    cases entry with
    | none => exact hmessage
    | some entry =>
      cases entry with
      | sticker alt => rfl
      | _ => exact hmessage

/-- A medium changes the text if it is a sticker. -/
theorem mediaFromTl_same (media : TlMedia) (tgm : TgMessageT) :
    SameContent (mediaFromTl codec media tgm) tgm ∧
      (mediaFromTl codec media tgm).message =
        (media.stickerAlt?.map cString).or tgm.message := by
  cases media with
  | photo photo =>
    cases photo with
    | none => exact ⟨⟨rfl, rfl, rfl, rfl, rfl, rfl, rfl⟩, rfl⟩
    | some photo =>
      obtain ⟨hsame, hmessage⟩ := photoSizes_same codec photo.sizes _
      exact ⟨hsame.trans ⟨rfl, rfl, rfl, rfl, rfl, rfl, rfl⟩, hmessage⟩
  | geo geo => cases geo <;> exact ⟨⟨rfl, rfl, rfl, rfl, rfl, rfl, rfl⟩, rfl⟩
  | document video round voice doc =>
    cases doc with
    | none => exact ⟨⟨rfl, rfl, rfl, rfl, rfl, rfl, rfl⟩, rfl⟩
    | some doc =>
      obtain ⟨hsame, hmessage⟩ := attributes_same codec doc.attributes _
      have hsizes := photoSizes_same codec doc.thumbs
      have hvideo := videoSizes_same codec doc.videoThumbs
      refine ⟨hsame.trans ((hvideo _).trans ((hsizes _).1.trans
        ⟨rfl, rfl, rfl, rfl, rfl, rfl, rfl⟩)), hmessage.trans ?_⟩
      exact congrArg _ (hsizes _).2
  | webPage webpage =>
    cases webpage with
    | none => exact ⟨⟨rfl, rfl, rfl, rfl, rfl, rfl, rfl⟩, rfl⟩
    | some web =>
      unfold mediaFromTl webPageMedia
      dsimp only
      split <;> exact ⟨⟨rfl, rfl, rfl, rfl, rfl, rfl, rfl⟩, rfl⟩
  | contact phoneNumber firstName lastName vcard userId =>
    exact ⟨⟨rfl, rfl, rfl, rfl, rfl, rfl, rfl⟩, rfl⟩
  | other id => exact ⟨⟨rfl, rfl, rfl, rfl, rfl, rfl, rfl⟩, rfl⟩

/-- What becomes of a `message` whose entities are all there. -/
theorem tgMessageFromTl_same (content : MessageContent) (tlm : TlMessage)
    (hentities : none ∉ tlm.entities) :
    ∃ tgm, tgMessageFromTl codec (content.toMessage tlm) = some tgm ∧
      SameContent tgm { messageOfContent content with ttlPeriod := 0 } ∧
      tgm.message = ((tlm.media.bind TlMedia.stickerAlt?).map cString).or
        (bufStrdupNonempty content.text) := by
  have hmap (entities : List (Option TlEntity)) (hnone : none ∉ entities) :
      ∃ converted, (entities.mapM fun entity ↦ entity.map tgEntity) = some converted := by
    induction entities with
    | nil => exact ⟨[], rfl⟩
    | cons entity entities ih =>
      obtain ⟨converted, hconverted⟩ := ih fun h ↦ hnone (List.mem_cons_of_mem _ h)
      cases entity with
      | none => exact absurd List.mem_cons_self hnone
      | some entity =>
        rw [List.mapM_cons, hconverted]
        exact ⟨tgEntity entity :: converted, rfl⟩
  obtain ⟨entities, hmapped⟩ := hmap tlm.entities hentities
  have hmapped' : ((content.toMessage tlm).entities.mapM fun entity ↦ entity.map tgEntity) =
      some entities := hmapped
  rw [tgMessageFromTl, hmapped', Option.bind_eq_bind, Option.bind_some]
  have hmedia : (content.toMessage tlm).media = tlm.media := rfl
  rw [hmedia]
  cases tlm.media with
  | none => exact ⟨_, rfl, ⟨rfl, rfl, rfl, rfl, rfl, rfl, rfl⟩, (Option.none_or).symm⟩
  | some media =>
    have hsame := mediaFromTl_same codec media
    exact ⟨_, rfl, (hsame _).1.trans ⟨rfl, rfl, rfl, rfl, rfl, rfl, rfl⟩, (hsame _).2⟩

/-- A missing entity is followed. -/
theorem tgMessageFromTl_of_missing (content : MessageContent) (tlm : TlMessage)
    (hentities : none ∈ tlm.entities) :
    tgMessageFromTl codec (content.toMessage tlm) = none := by
  have hmap (entities : List (Option TlEntity)) (hnone : none ∈ entities) :
      (entities.mapM fun entity ↦ entity.map tgEntity) = none := by
    induction entities with
    | nil => exact absurd hnone List.not_mem_nil
    | cons entity entities ih =>
      cases entity with
      | none => rw [List.mapM_cons]; rfl
      | some entity =>
        have hrest : none ∈ entities := by simpa using hnone
        rw [List.mapM_cons, ih hrest]
        rfl
  have hmapped : ((content.toMessage tlm).entities.mapM fun entity ↦ entity.map tgEntity) = none :=
    hmap tlm.entities hentities
  rw [tgMessageFromTl, hmapped]
  rfl

end Copies

/-! ## The condition is exact -/

/-- A text is kept whole if and only if it has no zero in it. -/
theorem cString_eq_charsOf_iff (text : Bytes) : cString text = charsOf text ↔ 0 ∉ text := by
  unfold cString charsOf
  constructor
  · intro heq hzero
    have hlength := congrArg List.length heq
    rw [List.length_map, List.length_map] at hlength
    have hall := (List.takeWhile_prefix fun byte : UInt8 ↦ decide (byte ≠ 0)).eq_of_length hlength
    rw [List.takeWhile_eq_self_iff] at hall
    exact absurd (hall 0 hzero) (by decide)
  · intro hzero
    congr 1
    rw [List.takeWhile_eq_self_iff]
    intro byte hbyte
    rw [decide_eq_true_eq]
    rintro rfl
    exact hzero hbyte

section Exact

variable (codec : Codec) (onLog : Bool) (content : MessageContent)

/-- A container makes no difference. -/
theorem tgDoUpdates_object (container : Container) (update : TlUpdate) :
    tgDoUpdates codec onLog (container.object update) = (tgDoUpdate codec update).map (·, 0) := by
  cases container with
  | updateShort => rfl
  | updatesCombined =>
    cases h : tgDoUpdate codec update <;>
      simp [Container.object, tgDoUpdates, doUpdateList, h]
  | updates =>
    cases h : tgDoUpdate codec update <;>
      simp [Container.object, tgDoUpdates, doUpdateList, h]

/-- One report with one message arrives if and only if the message says the content. -/
theorem arrives_iff_conveys {tl : TlUpdates} {reports : List Report} {tgm : TgMessageT}
    (hreports : tgDoUpdates codec onLog tl = some (reports, 0))
    (hupdate : reports.filterMap Report.update? = [some tgm]) :
    Arrives codec onLog content tl ↔ tgm.Conveys content := by
  constructor
  · rintro ⟨reports', tgm', hreports', hupdate', hconveys⟩
    rw [hreports] at hreports'
    cases hreports'
    rw [hupdate] at hupdate'
    cases hupdate'
    exact hconveys
  · exact fun hconveys ↦ ⟨reports, tgm, hreports, hupdate, hconveys⟩

/-- The text that is reported for a `message`. -/
theorem reportedText_eq_iff (media : Option TlMedia) :
    ((media.bind TlMedia.stickerAlt?).map cString).or (bufStrdupNonempty content.text) =
        some (charsOf content.text) ↔ TextKept content.text media := by
  unfold TextKept
  cases media.bind TlMedia.stickerAlt? with
  | some alt =>
    rw [Option.map_some, Option.some_or, Option.some.injEq]
  | none =>
    rw [Option.map_none, Option.none_or, bufStrdupNonempty]
    by_cases hempty : content.text = []
    · rw [if_pos hempty]
      exact iff_of_false (fun h ↦ by cases h) fun h ↦ h.1 hempty
    · rw [if_neg hempty, bufStrdup, Option.some.injEq, cString_eq_charsOf_iff]
      exact ⟨fun h ↦ ⟨hempty, h⟩, fun h ↦ h.2⟩

/-- A message arrives as it is if and only if its way is faithful to its content. -/
theorem arrives_iff_faithful (way : MessageWay) :
    Arrives codec onLog content (way.object content) ↔ way.Faithful content := by
  cases way with
  | short =>
    rw [arrives_iff_conveys codec onLog content rfl rfl, MessageWay.Faithful, ← cString_eq_charsOf_iff]
    constructor
    · exact fun hconveys ↦ Option.some.inj hconveys.text
    · exact fun htext ↦ ⟨rfl, congrArg some htext, rfl, rfl, rfl, rfl, rfl, rfl⟩
  | shortChat fromId chatId =>
    rw [arrives_iff_conveys codec onLog content rfl rfl, MessageWay.Faithful, ← cString_eq_charsOf_iff]
    constructor
    · exact fun hconveys ↦ ⟨hconveys.id.symm, Option.some.inj hconveys.text⟩
    · exact fun h ↦ ⟨h.1.symm, congrArg some h.2, rfl, rfl, rfl, rfl, rfl, rfl⟩
  | newMessage container tlm =>
    rw [MessageWay.object, MessageWay.Faithful]
    by_cases hentities : none ∈ tlm.entities
    · have hfault := tgMessageFromTl_of_missing codec content tlm hentities
      refine iff_of_false ?_ fun h ↦ h.1 hentities
      rintro ⟨reports, tgm, hreports, -, -⟩
      rw [tgDoUpdates_object, tgDoUpdate, tgMessageFromTlUnknown, hfault] at hreports
      cases hreports
    · obtain ⟨tgm, htgm, hsame, hmessage⟩ := tgMessageFromTl_same codec content tlm hentities
      have hreports : tgDoUpdates codec onLog
          (container.object (.newMessage (some (.message (content.toMessage tlm))))) =
            some ([.toDatabase (some tgm), .onUpdate (some tgm)], 0) := by
        rw [tgDoUpdates_object, tgDoUpdate, tgMessageFromTlUnknown, htgm]
        rfl
      rw [arrives_iff_conveys codec onLog content hreports rfl, ← reportedText_eq_iff, ← hmessage]
      constructor
      · exact fun hconveys ↦ ⟨hentities, hconveys.ttlPeriod.symm.trans hsame.ttlPeriod, hconveys.text⟩
      · rintro ⟨-, hperiod, htext⟩
        exact ⟨hsame.id, htext, hsame.date, hsame.out, hsame.mentioned, hsame.mediaUnread,
          hsame.silent, hsame.ttlPeriod.trans hperiod.symm⟩

end Exact

/-- The message number 5 of a group arrives with another number. -/
theorem not_arrives_chat :
    ¬ Arrives plainCodec false ⟨5, [104, 105], 1700000000, false, false, false, false, 0⟩
      ((MessageWay.shortChat 1 2).object
        ⟨5, [104, 105], 1700000000, false, false, false, false, 0⟩) := by
  rw [arrives_iff_conveys plainCodec false _ rfl rfl]
  intro hconveys
  exact absurd hconveys.id (by decide)

end LibTg.Tg
